import LibVmi.Acquisition.Publish
import LibVmi.Artifact.Elf
import LibVmi.Artifact.Files
import LibVmi.Artifact.ReadInto

namespace LibVmi.Acquisition

open Data Artifact

/-! Ranges that are read out of a core dump. An external command writes the core
of the whole machine to a temporary file, the range is taken from it and
published, and the core is removed. -/

/-- The files, and the counters that number the temporary cores and the
publications of a provider. -/
structure Disk where
  files : Files
  cores : Nat
  publications : Nat

/-- What the command does: it may leave a file under the name it is given,
whether it succeeds or not. -/
structure Dump where
  output : Option (List UInt8)
  result : Result String

def Dump.run (dump : Dump) (files : Files) (core : Entry) : Files :=
  match dump.output with
  | none => files
  | some content => (files.create core).append files.next content

/-- What a call depends on besides its arguments and the disk. An option is the
error with which a step fails that could have succeeded. -/
structure Surroundings where
  process : Nat
  clock : Except String Nat
  showEntry : Entry → String
  nameIsUtf8 : Bool
  pathIsUtf8 : Bool
  coreAllocation : Option VmiError
  inspectDestination : Option String
  inspectCore : Option String
  arguments : Option VmiError
  dump : Dump
  openCore : List UInt8 → Except String File
  buffer : Option String
  publication : Faults

/-- The disk that a call leaves, the name it gave to the command if it ran it,
and what it returns. -/
structure Outcome (α : Type) where
  disk : Disk
  asked : Option Entry
  value : α

/-- Why an output is refused: it cannot be inspected, or it is there. -/
def unusableOutput (fault : Option String) (description shown : String) :
    VmiError :=
  match fault with
  | some error => .backend ("failed to inspect " ++ description ++ " output " ++
      shown ++ ": " ++ error)
  | none => .backend
      ("refusing to replace existing " ++ description ++ " output " ++ shown)

def ensureOutputAbsent (fault : Option String) (files : Files)
    (entry : Entry) (description shown : String) : Result Unit :=
  rejectIf (fault.isSome ∨ files.entries entry ≠ none)
    (unusableOutput fault description shown)

/-- Runs the command, unless the name is taken or cannot be given to it. -/
def dumpCore (provider : String) (around : Surroundings) (disk : Disk)
    (core : Entry) : Outcome (Result Unit) :=
  match ensureOutputAbsent around.inspectCore disk.files core
      (provider ++ " core") (around.showEntry core) with
  | .error error => ⟨disk, none, .error error⟩
  | .ok _ =>
      if ¬ around.pathIsUtf8 then
        ⟨disk, none, .error (.backend (provider ++ " core path is not UTF-8"))⟩
      else
        match around.arguments with
        | some error => ⟨disk, none, .error error⟩
        | none =>
            ⟨{ disk with files := around.dump.run disk.files core }, some core,
              around.dump.result.map fun _ => ()⟩

/-- The loaders of core files see the core through the host. -/
def coreHost (around : Surroundings) (files : Files) (core : Entry) : Host where
  canonicalize := .ok
  openFile := fun _ =>
    match files.read core with
    | none => .error notFound
    | some content => around.openCore content
  fromStr := fun _ => .error ""
  utf8Error := fun _ => ""

def coreFile (description format : String) (around : Surroundings)
    (files : Files) (core : Entry) : Result SnapshotBundle := do
  let data ← readFileLimited (coreHost around files core)
    (around.showEntry core) defaultMaxArtifactSize description
  fromElfWithLimits (around.showEntry core) data format defaultMaxArtifactSize

def elfVmcoreFile : Surroundings → Files → Entry → Result SnapshotBundle :=
  coreFile "ELF artifact" "elf-vmcore"

def xenCoreFile : Surroundings → Files → Entry → Result SnapshotBundle :=
  coreFile "Xen core artifact" "xen-core"

/-- The bytes of a range, read into a buffer of zeros. -/
def rangeBytes (failed : String) (around : Surroundings)
    (bundle : SnapshotBundle) (start : Gpa) (length : Nat) :
    Result (List UInt8) :=
  match around.buffer with
  | some error => .error (.backend (failed ++ ": " ++ error))
  | none =>
      match bundle.readInto start (List.replicate length 0) with
      | (bytes, .ok _) => .ok bytes
      | (_, .error error) => .error error

def checkRange (provider : String) (start : Gpa) (length : UInt64) :
    Result Unit := do
  rejectIf (length = 0)
    (.backend (provider ++ " acquisition length must be non-zero"))
  let _ ← okOr (checkedAdd start.raw length)
    (.backend (provider ++ " acquisition physical range overflows"))

def Disk.remove (disk : Disk) (core : Entry) : Disk :=
  { disk with files := (disk.files.removeFile core).getD disk.files }

/-- A name without its last extension; a leading dot begins no extension. -/
def fileStem (name : List Char) : List Char :=
  match name.reverse.dropWhile (· ≠ '.') with
  | [] => name
  | _ :: before => if before = [] then name else before.reverse

/-! Xen and VirtualBox. -/

structure CoreProvider where
  name : String
  publisher : Publisher
  load : Surroundings → Files → Entry → Result SnapshotBundle

namespace CoreProvider

def xen : CoreProvider := ⟨"Xen", .xen, xenCoreFile⟩

def virtualBox : CoreProvider := ⟨"VirtualBox", .virtualBox, elfVmcoreFile⟩

/-- The core beside an entry. A clock before the epoch counts as the epoch. -/
def core (around : Surroundings) (sequence : Nat) (target : Entry) : Entry where
  directory := target.directory
  name := fileStem target.name ++ ".vmi-".toList ++
    Nat.toDigits 10 around.process ++ '-' ::
    Nat.toDigits 10 (around.clock.toOption.getD 0) ++ '-' ::
    Nat.toDigits 10 sequence ++ ".core".toList

/-- A path without a file name stays as it is. It is taken to lead to a
directory, which is refused as an output. -/
def temporaryCorePath (provider : CoreProvider) (around : Surroundings)
    (disk : Disk) (destination : Destination) : Disk × Result Entry :=
  match Usize.checkedAdd disk.cores 1 with
  | none => (disk, .error (.backend
      (provider.name ++ " temporary core identifier space exhausted")))
  | some next =>
      ({ disk with cores := next },
        match around.coreAllocation, destination.entry with
        | some error, _ => .error error
        | none, some target => .ok (core around disk.cores target)
        | none, none => .error (unusableOutput around.inspectCore
            (provider.name ++ " core") destination.shown))

def finishTemporaryCore (provider : CoreProvider) (around : Surroundings)
    (core : Entry) (disk : Disk) (result : Result Unit) : Disk × Result Unit :=
  match result, disk.files.removeFile core with
  | .error error, _ => (disk.remove core, .error error)
  | .ok _, some files => ({ disk with files }, .ok ())
  | .ok _, none => (disk, .error (.backend
      ("failed to remove temporary " ++ provider.name ++ " core " ++
        around.showEntry core ++ ": " ++ notFound)))

/-- The frame that the calls of these providers share. What they make of the
core may leave a value behind in any case. -/
def withCore (provider : CoreProvider) (around : Surroundings) (disk : Disk)
    (destination : Destination) (value : α)
    (make : Disk → Entry → Disk × α × Result Unit) :
    Outcome (α × Result Unit) :=
  match provider.temporaryCorePath around disk destination with
  | (disk, .error error) => ⟨disk, none, value, .error error⟩
  | (disk, .ok core) =>
      match dumpCore provider.name around disk core with
      | ⟨disk, asked, .error error⟩ => ⟨disk, asked, value, .error error⟩
      | ⟨disk, asked, .ok _⟩ =>
          let (disk, value, result) := make disk core
          let (disk, result) :=
            provider.finishTemporaryCore around core disk result
          ⟨disk, asked, value, result⟩

def publishRange (provider : CoreProvider) (around : Surroundings) (disk : Disk)
    (destination : Destination) (bytes : List UInt8) : Disk × Result Unit :=
  let (files, publications, result) := provider.publisher.publish
    around.process around.publication disk.files disk.publications destination
    bytes
  ({ disk with files, publications }, result.mapError fun error =>
    .backend (provider.publisher.message destination.shown error))

/-- What is done with a core that has been dumped. -/
def extractRange (provider : CoreProvider) (around : Surroundings) (disk : Disk)
    (core : Entry) (destination : Destination) (start : Gpa) (length : Nat) :
    Disk × Result Unit :=
  match provider.load around disk.files core with
  | .error error => (disk, .error error)
  | .ok bundle =>
      match rangeBytes ("failed to allocate " ++ toString length ++ "-byte " ++
          provider.name ++ " acquisition buffer") around bundle start length with
      | .error error => (disk, .error error)
      | .ok bytes => provider.publishRange around disk destination bytes

def savePhysicalRange (provider : CoreProvider) (around : Surroundings)
    (disk : Disk) (destination : Destination) (start : Gpa) (length : UInt64) :
    Outcome (Unit × Result Unit) :=
  match checkRange provider.name start length with
  | .error error => ⟨disk, none, (), .error error⟩
  | .ok _ => provider.withCore around disk destination ()
      fun disk core =>
        let (disk, result) := provider.extractRange around disk core
          destination start length.toNat
        (disk, (), result)

/-- `MemoryAccess::read_into` of VirtualBox. `memory` is the direct transport, if
the session has one, and `liveCore` names the core in the temporary
directory. -/
def readInto (around : Surroundings) (disk : Disk)
    (memory : Option (Gpa → List UInt8 → List UInt8 × Result Unit))
    (liveCore : Except VmiError Destination) (address : Gpa)
    (output : List UInt8) : Outcome (List UInt8 × Result Unit) :=
  if output = [] then ⟨disk, none, output, .ok ()⟩
  else
    match memory with
    | some transport => ⟨disk, none, transport address output⟩
    | none =>
        match liveCore with
        | .error error => ⟨disk, none, output, .error error⟩
        | .ok destination =>
            virtualBox.withCore around disk destination output
              fun disk core =>
                match elfVmcoreFile around disk.files core with
                | .error error => (disk, output, .error error)
                | .ok bundle => (disk, bundle.readInto address output)

end CoreProvider

/-! libvirt publishes in place. -/

namespace Libvirt

/-- The core beside an entry. -/
def core (around : Surroundings) (nanos sequence : Nat) (target : Entry) :
    Entry where
  directory := target.directory
  name := '.' :: (target.name ++ ".libvirt-".toList ++
    Nat.toDigits 10 around.process ++ '-' :: Nat.toDigits 10 nanos ++ '-' ::
    Nat.toDigits 10 sequence ++ ".core".toList)

def temporaryCorePath (around : Surroundings) (disk : Disk) (target : Entry) :
    Disk × Result Entry :=
  if ¬ around.nameIsUtf8 then
    (disk, .error (.backend "libvirt output filename is not UTF-8"))
  else
    match Usize.checkedAdd disk.cores 1 with
    | none => (disk, .error (.backend "libvirt temporary sequence exhausted"))
    | some next =>
        ({ disk with cores := next },
          match around.clock with
          | .error error => .error (.backend
              ("system clock precedes epoch: " ++ error))
          | .ok nanos => .ok (core around nanos disk.cores target))

/-- A dump that succeeded must have made the core. -/
def saveSnapshot (around : Surroundings) (disk : Disk) (core : Entry) :
    Outcome (Result Unit) :=
  match dumpCore "libvirt" around disk core with
  | ⟨disk, asked, .error error⟩ => ⟨disk, asked, .error error⟩
  | ⟨disk, asked, .ok _⟩ => ⟨disk, asked,
      rejectIf (disk.files.entries core = none) (.backend
        "virsh reported success without creating the core")⟩

def publishNew (faults : Faults) (shown : String) (files : Files)
    (target : Entry) (bytes : List UInt8) : Files × Result Unit :=
  match attempt faults.create fileExists (files.createNew target) with
  | .error error => (files, .error (.backend
      ("failed to create " ++ shown ++ ": " ++ error)))
  | .ok (files, node) =>
      let failed (files : Files) (error : String) : Files × Result Unit :=
        (cleanUp faults files target, .error (.backend
          ("failed to publish " ++ shown ++ ": " ++ error)))
      match writeAll faults.write files node bytes with
      | (files, .error error) => failed files error
      | (files, .ok _) =>
          match faults.sync with
          | some error => failed files error
          | none => (files, .ok ())

def extractRange (around : Surroundings) (disk : Disk) (core target : Entry)
    (shown : String) (start : Gpa) (length : Nat) : Disk × Result Unit :=
  match elfVmcoreFile around disk.files core with
  | .error error => (disk, .error error)
  | .ok bundle =>
      match rangeBytes "failed to allocate range" around bundle start length with
      | .error error => (disk, .error error)
      | .ok bytes =>
          let (files, result) := publishNew around.publication shown disk.files
            target bytes
          ({ disk with files }, result)

/-- A path without a file name is taken to lead to a directory, which is in the
way. -/
def savePhysicalRange (around : Surroundings) (disk : Disk)
    (destination : Destination) (start : Gpa) (length : UInt64) :
    Outcome (Result Unit) :=
  let refused := unusableOutput around.inspectDestination "libvirt range"
    destination.shown
  match checkRange "libvirt" start length, destination.entry with
  | .error error, _ => ⟨disk, none, .error error⟩
  | .ok _, none => ⟨disk, none, .error refused⟩
  | .ok _, some target =>
      if around.inspectDestination.isSome ∨ disk.files.entries target ≠ none then
        ⟨disk, none, .error refused⟩
      else
        match temporaryCorePath around disk target with
        | (disk, .error error) => ⟨disk, none, .error error⟩
        | (disk, .ok core) =>
            match saveSnapshot around disk core with
            | ⟨disk, asked, .error error⟩ =>
                ⟨disk.remove core, asked, .error error⟩
            | ⟨disk, asked, .ok _⟩ =>
                let (disk, result) := extractRange around disk core target
                  destination.shown start length.toNat
                ⟨disk.remove core, asked, result⟩

end Libvirt

/-! What the calls leave behind. -/

/-- The command is run on this name. -/
structure Ready (around : Surroundings) (files : Files) (core : Entry) :
    Prop where
  inspected : around.inspectCore = none
  absent : files.entries core = none
  utf8 : around.pathIsUtf8 = true
  arguments : around.arguments = none

theorem dumpCore_ready (provider : String) {around : Surroundings} {disk : Disk}
    {core : Entry} (ready : Ready around disk.files core) :
    dumpCore provider around disk core =
      ⟨{ disk with files := around.dump.run disk.files core }, some core,
        around.dump.result.map fun _ => ()⟩ := by
  simp [dumpCore, ensureOutputAbsent, rejectIf, ready.inspected, ready.absent,
    ready.utf8, ready.arguments]

theorem dumpCore_unready (provider : String) {around : Surroundings}
    {disk : Disk} {core : Entry} (unready : ¬ Ready around disk.files core) :
    ∃ error, dumpCore provider around disk core =
      ⟨disk, none, .error error⟩ := by
  unfold dumpCore
  cases checked : ensureOutputAbsent around.inspectCore disk.files core
      (provider ++ " core") (around.showEntry core) with
  | error error => exact ⟨error, rfl⟩
  | ok _ =>
      have absent := rejectIf_eq_ok.mp checked
      rw [not_or, Option.not_isSome_iff_eq_none, not_not] at absent
      cases utf8 : around.pathIsUtf8 with
      | false => exact ⟨_, rfl⟩
      | true =>
          cases arguments : around.arguments with
          | some error => exact ⟨error, rfl⟩
          | none =>
              exact (unready ⟨absent.1, absent.2, utf8, arguments⟩).elim

theorem dump_keeps (dump : Dump) {files : Files} {core entry : Entry}
    (absent : files.entries core = none) (different : entry ≠ core) :
    files.Keeps (dump.run files core) entry := by
  unfold Dump.run
  cases dump.output with
  | none => exact .refl files entry
  | some content =>
      exact (FileSystem.Keeps.create absent entry).trans
        (.append (files.create_elsewhere different) content)

theorem dump_present {dump : Dump} (files : Files) (core : Entry) :
    (dump.run files core).entries core = none ↔
      files.entries core = none ∧ dump.output = none := by
  unfold Dump.run
  cases dump.output <;> simp

theorem remove_gone (disk : Disk) (core : Entry) :
    (disk.remove core).files.entries core = none := by
  unfold Disk.remove
  cases removed : disk.files.removeFile core with
  | none => exact FileSystem.removeFile_eq_none.mp removed
  | some files =>
      obtain ⟨_, rfl⟩ := FileSystem.removeFile_eq_some.mp removed
      exact disk.files.remove_entry core

theorem remove_keeps (disk : Disk) {core entry : Entry}
    (different : entry ≠ core) :
    disk.files.Keeps (disk.remove core).files entry := by
  unfold Disk.remove
  cases removed : disk.files.removeFile core with
  | none => exact .refl disk.files entry
  | some files =>
      obtain ⟨_, rfl⟩ := FileSystem.removeFile_eq_some.mp removed
      exact .remove different

namespace CoreProvider

/-- The call comes as far as the command. -/
structure Asks (around : Surroundings) (disk : Disk)
    (destination : Destination) (target : Entry) : Prop where
  room : disk.cores + 1 < Usize.limit
  allocated : around.coreAllocation = none
  named : destination.entry = some target
  ready : Ready around disk.files (core around disk.cores target)

variable (provider : CoreProvider) {around : Surroundings} {disk : Disk}
  {destination : Destination} {target : Entry} {α : Type} (value : α)
  (make : Disk → Entry → Disk × α × Result Unit)

theorem finishTemporaryCore_gone (core : Entry) (disk : Disk)
    (result : Result Unit) :
    (provider.finishTemporaryCore around core disk result).1.files.entries
      core = none := by
  cases result with
  | error error => exact remove_gone disk core
  | ok _ =>
      unfold finishTemporaryCore
      cases removed : disk.files.removeFile core with
      | none => exact FileSystem.removeFile_eq_none.mp removed
      | some files =>
          obtain ⟨_, rfl⟩ := FileSystem.removeFile_eq_some.mp removed
          exact disk.files.remove_entry core

theorem finishTemporaryCore_keeps {core entry : Entry} (disk : Disk)
    (result : Result Unit) (different : entry ≠ core) :
    disk.files.Keeps
      (provider.finishTemporaryCore around core disk result).1.files entry := by
  cases result with
  | error error => exact remove_keeps disk different
  | ok _ =>
      unfold finishTemporaryCore
      cases removed : disk.files.removeFile core with
      | none => exact .refl disk.files entry
      | some files =>
          obtain ⟨_, rfl⟩ := FileSystem.removeFile_eq_some.mp removed
          exact .remove different

theorem temporaryCorePath_asks (asks : Asks around disk destination target) :
    provider.temporaryCorePath around disk destination =
      ({ disk with cores := disk.cores + 1 },
        .ok (core around disk.cores target)) := by
  simp [temporaryCorePath, Usize.checkedAdd, asks.room, asks.allocated,
    asks.named]

theorem withCore_idle
    (idle : ∀ target, ¬ Asks around disk destination target) :
    (provider.withCore around disk destination value make).asked = none ∧
      (provider.withCore around disk destination value make).disk.files =
        disk.files := by
  unfold withCore temporaryCorePath
  cases room : Usize.checkedAdd disk.cores 1 with
  | none => exact ⟨rfl, rfl⟩
  | some next =>
      cases allocated : around.coreAllocation with
      | some error => exact ⟨rfl, rfl⟩
      | none =>
          cases named : destination.entry with
          | none => exact ⟨rfl, rfl⟩
          | some target =>
              have unready :
                  ¬ Ready around disk.files (core around disk.cores target) :=
                fun ready => idle target ⟨(Usize.checkedAdd_eq_some.mp room).2,
                  allocated, named, ready⟩
              obtain ⟨error, failed⟩ := @dumpCore_unready provider.name around
                { disk with cores := next } _ unready
              simp [failed]

/-- The error of the command is returned at once, and its output stays. -/
theorem withCore_failed (asks : Asks around disk destination target)
    {error : VmiError} (failed : around.dump.result = .error error) :
    (provider.withCore around disk destination value make).asked =
        some (core around disk.cores target) ∧
      (provider.withCore around disk destination value make).disk.files =
        around.dump.run disk.files (core around disk.cores target) := by
  have dumped := @dumpCore_ready provider.name around
    { disk with cores := disk.cores + 1 } _ asks.ready
  simp [withCore, provider.temporaryCorePath_asks asks, dumped, failed,
    Except.map]

theorem withCore_done (asks : Asks around disk destination target)
    {text : String} (done : around.dump.result = .ok text) :
    (provider.withCore around disk destination value make).asked =
        some (core around disk.cores target) ∧
      (provider.withCore around disk destination value make).disk.files.entries
        (core around disk.cores target) = none ∧
      ∀ entry, entry ≠ core around disk.cores target →
        (∀ (dumped : Disk) core,
          dumped.files.Keeps (make dumped core).1.files entry) →
        disk.files.Keeps (provider.withCore around disk destination value
          make).disk.files entry := by
  have dumped := @dumpCore_ready provider.name around
    { disk with cores := disk.cores + 1 } _ asks.ready
  simp only [withCore, provider.temporaryCorePath_asks asks, dumped, done,
    Except.map]
  refine ⟨trivial, provider.finishTemporaryCore_gone _ _ _, ?_⟩
  intro entry different kept
  have made := kept ⟨around.dump.run disk.files (core around disk.cores target),
    disk.cores + 1, disk.publications⟩ (core around disk.cores target)
  exact ((dump_keeps around.dump asks.ready.absent different).trans made).trans
    (provider.finishTemporaryCore_keeps _ _ different)

theorem publishRange_keeps (around : Surroundings) (disk : Disk)
    (bytes : List UInt8) (named : destination.entry = some target) :
    disk.files.Keeps
      (provider.publishRange around disk destination bytes).1.files target := by
  refine Publisher.publish_keeps provider.publisher around.process
    around.publication disk.files disk.publications destination bytes ?_
  intro other member
  rw [named, Option.mem_some_iff] at member
  subst member
  exact (provider.publisher.temporary_ne _ _ _).symm

theorem extractRange_keeps (around : Surroundings) (disk : Disk) (core : Entry)
    (start : Gpa) (length : Nat) (named : destination.entry = some target) :
    disk.files.Keeps (provider.extractRange around disk core destination start
      length).1.files target := by
  unfold extractRange
  cases provider.load around disk.files core with
  | error error => exact .refl disk.files target
  | ok bundle =>
      dsimp only
      split
      · exact .refl disk.files target
      · exact provider.publishRange_keeps around disk _ named

end CoreProvider

/-- Nothing is left under the name that was given to the command, and a
destination that was there has not changed. -/
def Tidy (before : Disk) (target : Option Entry) (outcome : Outcome α) : Prop :=
  (∀ core ∈ outcome.asked, outcome.disk.files.entries core = none) ∧
    ∀ entry ∈ target, ∀ content, before.files.read entry = some content →
      outcome.disk.files.read entry = some content

theorem tidy_unasked (disk : Disk) (target : Option Entry) (value : α) :
    Tidy disk target ⟨disk, none, value⟩ :=
  ⟨by simp, fun _ _ _ found => found⟩

/-- The command fails and leaves a file all the same. -/
def Dump.Abandons (dump : Dump) : Prop :=
  (∃ error, dump.result = .error error) ∧ dump.output ≠ none

namespace CoreProvider

variable (provider : CoreProvider) {around : Surroundings} {disk : Disk}
  {destination : Destination} {α : Type} (value : α)
  (make : Disk → Entry → Disk × α × Result Unit)

theorem withCore_tidy_iff (target : Option Entry)
    (kept : ∀ entry ∈ target, ∀ (dumped : Disk) core,
      dumped.files.Keeps (make dumped core).1.files entry) :
    Tidy disk target (provider.withCore around disk destination value make) ↔
      ¬ ((∃ target, Asks around disk destination target) ∧
        around.dump.Abandons) := by
  by_cases asked : ∃ target, Asks around disk destination target
  · obtain ⟨named, asks⟩ := asked
    have different {entry : Entry} {content : List UInt8}
        (found : disk.files.read entry = some content) :
        entry ≠ core around disk.cores named := by
      intro same
      subst same
      simp [FileSystem.read, asks.ready.absent] at found
    cases result : around.dump.result with
    | error error =>
        obtain ⟨given, left⟩ := provider.withCore_failed value make asks result
        have kept : ∀ entry ∈ target, ∀ content,
            disk.files.read entry = some content →
            (provider.withCore around disk destination value
              make).disk.files.read entry = some content := by
          intro entry _ content found
          rw [left]
          exact (dump_keeps around.dump asks.ready.absent
            (different found)).read found
        constructor
        · rintro ⟨gone, _⟩ ⟨_, _, output⟩
          have absent := gone _ (by rw [given]; rfl)
          rw [left, dump_present] at absent
          exact output absent.2
        · intro safe
          refine ⟨?_, kept⟩
          intro core member
          rw [given, Option.mem_some_iff] at member
          subst member
          rw [left, dump_present]
          refine ⟨asks.ready.absent, ?_⟩
          by_contra output
          exact safe ⟨⟨named, asks⟩, ⟨error, result⟩, output⟩
    | ok text =>
        obtain ⟨given, gone, keeps⟩ :=
          provider.withCore_done value make asks result
        refine iff_of_true ⟨?_, ?_⟩ ?_
        · intro core member
          rw [given, Option.mem_some_iff] at member
          exact member ▸ gone
        · intro entry member content found
          exact (keeps entry (different found) (kept entry member)).read found
        · intro given
          obtain ⟨_, ⟨error, failed⟩, _⟩ := given
          rw [result] at failed
          contradiction
  · obtain ⟨unasked, same⟩ := provider.withCore_idle value make
      (not_exists.mp asked)
    refine iff_of_true ⟨?_, ?_⟩ (fun both => asked both.1)
    · simp [unasked]
    · intro entry _ content found
      rwa [same]

end CoreProvider

namespace Libvirt

variable {around : Surroundings} {disk : Disk}

theorem temporaryCorePath_files (around : Surroundings) (disk : Disk)
    (target : Entry) :
    (temporaryCorePath around disk target).1.files = disk.files := by
  unfold temporaryCorePath
  split
  · rfl
  · cases Usize.checkedAdd disk.cores 1 <;> rfl

theorem asked_eq {core asked : Entry}
    (given : asked ∈ (saveSnapshot around disk core).asked) : asked = core := by
  unfold saveSnapshot at given
  by_cases ready : Ready around disk.files core
  · rw [dumpCore_ready "libvirt" ready] at given
    cases result : around.dump.result with
    | error error => simpa [result, Except.map] using given.symm
    | ok text => simpa [result, Except.map] using given.symm
  · obtain ⟨error, failed⟩ := dumpCore_unready "libvirt" ready
    rw [failed] at given
    contradiction

/-- Every way out passes the removal of the core. -/
theorem savePhysicalRange_tidy (around : Surroundings) (disk : Disk)
    (destination : Destination) (start : Gpa) (length : UInt64) :
    Tidy disk destination.entry
      (savePhysicalRange around disk destination start length) := by
  have early (target : Option Entry) (error : VmiError) (after : Disk)
      (same : after.files = disk.files) :
      Tidy disk target (⟨after, none, .error error⟩ :
        Outcome (Result Unit)) := by
    refine ⟨by simp, ?_⟩
    intro entry _ content found
    rwa [same]
  unfold savePhysicalRange
  cases checkRange "libvirt" start length with
  | error error => exact early _ error disk rfl
  | ok _ =>
      cases named : destination.entry with
      | none => exact early _ _ disk rfl
      | some target =>
          dsimp only
          split
          · exact early _ _ disk rfl
          · rename_i usable
            have absent : disk.files.entries target = none := by
              by_contra present
              exact usable (.inr present)
            have late {core : Entry} {asked : Option Entry} {after : Disk}
                {result : Result Unit} (given : ∀ name ∈ asked, name = core) :
                Tidy disk (some target)
                  ⟨after.remove core, asked, result⟩ := by
              refine ⟨?_, ?_⟩
              · intro name member
                rw [given name member]
                exact remove_gone after core
              · rintro _ ⟨⟩ content found
                simp [FileSystem.read, absent] at found
            have same := temporaryCorePath_files around disk target
            rcases path : temporaryCorePath around disk target with
              ⟨numbered, named⟩
            rw [path] at same
            cases named with
            | error error => exact early _ error numbered same
            | ok core =>
                have given (name : Entry)
                    (member : name ∈ (saveSnapshot around numbered core).asked) :
                    name = core := asked_eq member
                dsimp only
                rcases saved : saveSnapshot around numbered core with
                  ⟨after, asked, result⟩
                rw [saved] at given
                cases result with
                | error error => exact late given
                | ok _ => exact late given

end Libvirt

/-! The calls that go through a core. -/

inductive Call where
  | saveXen (destination : Destination) (start : Gpa) (length : UInt64)
  | saveVirtualBox (destination : Destination) (start : Gpa) (length : UInt64)
  | saveLibvirt (destination : Destination) (start : Gpa) (length : UInt64)
  | readVirtualBox
      (memory : Option (Gpa → List UInt8 → List UInt8 × Result Unit))
      (liveCore : Except VmiError Destination) (address : Gpa)
      (output : List UInt8)

namespace Call

/-- A destination that must survive the call. -/
def target : Call → Option Entry
  | .saveXen destination _ _ | .saveVirtualBox destination _ _
  | .saveLibvirt destination _ _ => destination.entry
  | .readVirtualBox _ _ _ _ => none

/-- After the call, whatever it returns. -/
def LeavesTidy (around : Surroundings) (disk : Disk) (call : Call) : Prop :=
  match call with
  | .saveXen destination start length => Tidy disk call.target
      (CoreProvider.xen.savePhysicalRange around disk destination start length)
  | .saveVirtualBox destination start length => Tidy disk call.target
      (CoreProvider.virtualBox.savePhysicalRange around disk destination start
        length)
  | .saveLibvirt destination start length => Tidy disk call.target
      (Libvirt.savePhysicalRange around disk destination start length)
  | .readVirtualBox memory liveCore address output => Tidy disk call.target
      (CoreProvider.readInto around disk memory liveCore address output)

def RangeAsks (around : Surroundings) (disk : Disk) (destination : Destination)
    (start : Gpa) (length : UInt64) : Prop :=
  length ≠ 0 ∧ start.raw.toNat + length.toNat < 2 ^ 64 ∧
    ∃ target, CoreProvider.Asks around disk destination target

/-- The arguments, the disk and the surroundings let the call run the command,
and nothing but the command's success leads to the removal of its output. -/
def Exposed (around : Surroundings) (disk : Disk) : Call → Prop
  | .saveXen destination start length
  | .saveVirtualBox destination start length =>
      RangeAsks around disk destination start length
  | .saveLibvirt _ _ _ => False
  | .readVirtualBox memory liveCore _ output =>
      output ≠ [] ∧ memory = none ∧
        ∃ destination target, liveCore = .ok destination ∧
          CoreProvider.Asks around disk destination target

end Call

theorem checkRange_eq_ok {provider : String} {start : Gpa} {length : UInt64}
    {result : Unit} :
    checkRange provider start length = .ok result ↔
      length ≠ 0 ∧ start.raw.toNat + length.toNat < 2 ^ 64 := by
  have added : (∃ sum, checkedAdd start.raw length = some sum) ↔
      start.raw.toNat + length.toNat < 2 ^ 64 := by
    simp only [checkedAdd_eq_some, unsigned_toNat_uint64]
    constructor
    · intro given
      obtain ⟨sum, equal⟩ := given
      exact equal ▸ sum.toNat_lt
    · intro fits
      exact ⟨UInt64.ofNat _, UInt64.toNat_ofNat_of_lt' fits⟩
  simp only [checkRange, bind_eq_ok, rejectIf_eq_ok, okOr_eq_ok]
  simp [added]

theorem CoreProvider.savePhysicalRange_tidy_iff (provider : CoreProvider)
    (around : Surroundings) (disk : Disk) (destination : Destination)
    (start : Gpa) (length : UInt64) :
    Tidy disk destination.entry
      (provider.savePhysicalRange around disk destination start length) ↔
      ¬ (Call.RangeAsks around disk destination start length ∧
        around.dump.Abandons) := by
  unfold savePhysicalRange
  cases checked : checkRange provider.name start length with
  | error error =>
      refine iff_of_true (tidy_unasked disk _ _) ?_
      intro given
      obtain ⟨⟨nonzero, fits, _⟩, _⟩ := given
      have accepted : checkRange provider.name start length = .ok () :=
        checkRange_eq_ok.mpr ⟨nonzero, fits⟩
      rw [accepted] at checked
      contradiction
  | ok _ =>
      obtain ⟨nonzero, fits⟩ := checkRange_eq_ok.mp checked
      refine (provider.withCore_tidy_iff () _ destination.entry ?_).trans ?_
      · intro entry named dumped core
        exact provider.extractRange_keeps around dumped core start length.toNat
          named
      · simp only [Call.RangeAsks, ne_eq, nonzero, not_false_eq_true, fits,
          true_and]

theorem CoreProvider.readInto_tidy_iff (around : Surroundings) (disk : Disk)
    (memory : Option (Gpa → List UInt8 → List UInt8 × Result Unit))
    (liveCore : Except VmiError Destination) (address : Gpa)
    (output : List UInt8) :
    Tidy disk none
      (readInto around disk memory liveCore address output) ↔
      ¬ ((Call.readVirtualBox memory liveCore address output).Exposed around
        disk ∧ around.dump.Abandons) := by
  have unasked (value : List UInt8 × Result Unit) :
      Tidy disk none ⟨disk, none, value⟩ := tidy_unasked disk none value
  unfold readInto
  by_cases empty : output = []
  · rw [if_pos empty]
    exact iff_of_true (unasked _) (fun both => both.1.1 empty)
  · rw [if_neg empty]
    cases memory with
    | some transport =>
        exact iff_of_true (unasked _) (fun both => by cases both.1.2.1)
    | none =>
        cases liveCore with
        | error error =>
            refine iff_of_true (unasked _) ?_
            intro given
            obtain ⟨⟨_, _, destination, target, named, _⟩, _⟩ := given
            contradiction
        | ok destination =>
            refine (virtualBox.withCore_tidy_iff output _ none ?_).trans ?_
            · simp
            · simp [Call.Exposed, empty]

/-- The core of a dump that failed is left behind, and nothing else is. -/
theorem acquisition_tidy_iff (around : Surroundings) (disk : Disk)
    (call : Call) :
    call.LeavesTidy around disk ↔
      ¬ (call.Exposed around disk ∧ around.dump.Abandons) := by
  cases call with
  | saveXen destination start length =>
      exact CoreProvider.savePhysicalRange_tidy_iff .xen around disk destination
        start length
  | saveVirtualBox destination start length =>
      exact CoreProvider.savePhysicalRange_tidy_iff .virtualBox around disk
        destination start length
  | saveLibvirt destination start length =>
      exact iff_of_true
        (Libvirt.savePhysicalRange_tidy around disk destination start length)
        (fun both => both.1)
  | readVirtualBox memory liveCore address output =>
      exact CoreProvider.readInto_tidy_iff around disk memory liveCore address
        output

/-- A machine whose `xl dump-core` runs out of time after it has written a
byte. -/
def slowDump : Surroundings where
  process := 7
  clock := .ok 5
  showEntry := fun entry => String.ofList entry.name
  nameIsUtf8 := true
  pathIsUtf8 := true
  coreAllocation := none
  inspectDestination := none
  inspectCore := none
  arguments := none
  dump := ⟨some [0x7f], .error (.timeout "Xen command")⟩
  openCore := fun _ => .error ""
  buffer := none
  publication := Publisher.noFaults

theorem dump_timeout_leaves_core :
    let destination : Destination := ⟨"out.bin", 0, some Publisher.outBin.name⟩
    let outcome := CoreProvider.xen.savePhysicalRange slowDump ⟨.empty, 0, 0⟩
      destination ⟨0⟩ 1
    outcome.value.2 = .error (.timeout "Xen command") ∧
    outcome.asked = some (CoreProvider.core slowDump 0 Publisher.outBin) ∧
    outcome.disk.files.read (CoreProvider.core slowDump 0 Publisher.outBin) =
      some [0x7f] ∧
    ¬ (Call.saveXen destination ⟨0⟩ 1).LeavesTidy slowDump ⟨.empty, 0, 0⟩ := by
  refine ⟨rfl, rfl, rfl, ?_⟩
  intro given
  obtain ⟨gone, _⟩ := given
  exact absurd (gone _ rfl) (by decide)

end LibVmi.Acquisition
