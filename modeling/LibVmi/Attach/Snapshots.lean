import LibVmi.Acquisition.GuestRanges
import LibVmi.Artifact.Containers
import LibVmi.Attach.Negotiate

namespace LibVmi.Attach

open Data Artifact Acquisition
open Xen (GuestArchitecture ProviderDescriptor TargetDescriptor AttachRequest)

/-! The providers of memory that is at rest in a file. The names that they copy
find the memory they need. -/

structure DumpConnector where
  descriptor : ProviderDescriptor
  target : TargetDescriptor
  bundle : SnapshotBundle

structure DumpSession where
  descriptor : ProviderDescriptor
  target : TargetDescriptor
  bundle : SnapshotBundle

structure SnapshotConnector where
  descriptor : ProviderDescriptor
  target : TargetDescriptor
  bundle : SnapshotBundle

structure SnapshotSession where
  descriptor : ProviderDescriptor
  target : TargetDescriptor
  bundle : SnapshotBundle

namespace DumpConnector

def new (bundle : SnapshotBundle) (architecture : GuestArchitecture) :
    DumpConnector where
  descriptor := {
    id := "raw-dump"
    displayName := "Raw Memory Dump"
    version := none
    maturity := .preview
    capabilities := .fromCaps [.memoryRead] }
  target := {
    id := bundle.provenance.source
    displayName := some bundle.provenance.source
    architecture := architecture
    consistency := .immutableSnapshot }
  bundle := bundle

def connect (self : DumpConnector) (request : AttachRequest) :
    Result DumpSession :=
  let missing := request.requiredCapabilities.differenceOf
    self.descriptor.capabilities
  if missing.isEmpty = false then
    .error (.attachRejected self.descriptor.id missing)
  else
    let session : DumpSession := ⟨self.descriptor, self.target, self.bundle⟩
    match request.selector with
    | .named expected =>
        if expected ≠ self.target.id then
          .error (.backend ("dump target " ++ expected ++ " not found"))
        else .ok session
    | .any => .ok session

end DumpConnector

def DumpSession.readInto (self : DumpSession) (address : Gpa)
    (buffer : List UInt8) : List UInt8 × Result Unit :=
  self.bundle.readInto address buffer

def SnapshotSession.readInto (self : SnapshotSession) (address : Gpa)
    (output : List UInt8) : List UInt8 × Result Unit :=
  self.bundle.readInto address output

namespace SnapshotConnector

def trySnapshotTargetName (source formatName : String) : String :=
  source ++ " (" ++ formatName ++ ")"

def new (providerId displayName : String) (architecture : GuestArchitecture)
    (bundle : SnapshotBundle) : Result SnapshotConnector := do
  rejectIf (providerId = "" ∨ displayName = "")
    (.backend "snapshot provider ID and display name must not be empty")
  return {
    descriptor := {
      id := providerId
      displayName := displayName
      version := none
      maturity := .preview
      capabilities := .fromCaps [.memoryRead] }
    target := {
      id := bundle.provenance.source
      displayName := some (trySnapshotTargetName bundle.provenance.source
        bundle.provenance.format)
      architecture := architecture
      consistency := .immutableSnapshot }
    bundle := bundle }

def connect (self : SnapshotConnector) (request : AttachRequest) :
    Result SnapshotSession :=
  let missing := request.requiredCapabilities.differenceOf
    self.descriptor.capabilities
  if missing.isEmpty = false then
    .error (.attachRejected self.descriptor.id missing)
  else
    let session : SnapshotSession :=
      ⟨self.descriptor, self.target, self.bundle⟩
    match request.selector with
    | .named expected =>
        if expected ≠ self.target.id ∧
            self.target.displayName ≠ some expected then
          .error (.backend ("snapshot target " ++ expected ++ " not found"))
        else .ok session
    | .any => .ok session

/-! The openers. Each names its provider and says how the file is loaded. -/

variable (host : Host) (decoders : Decoders) (path : String)

def openVirtualboxCore (architecture : GuestArchitecture) :
    Result SnapshotConnector := do
  new "virtualbox-core" "VirtualBox VM Core" architecture
    (← SnapshotBundle.elfVmcoreFile host path)

def openVmwareVmem (architecture : GuestArchitecture) (physicalBase : Gpa) :
    Result SnapshotConnector := do
  new "vmware" "VMware VMEM Snapshot" architecture
    (← SnapshotBundle.rawFile host path physicalBase)

def openVmwareConvertedCore (architecture : GuestArchitecture) :
    Result SnapshotConnector := do
  new "vmware-core" "VMware Converted Core" architecture
    (← SnapshotBundle.convertedCoreFile host decoders path)

def openManifest (providerId displayName : String)
    (architecture : GuestArchitecture) : Result SnapshotConnector := do
  new providerId displayName architecture
    (← SnapshotBundle.manifestFile host path)

def openHypervManifest (architecture : GuestArchitecture) :
    Result SnapshotConnector :=
  openManifest host path "hyperv" "Hyper-V Saved State" architecture

def openHypervConvertedCore (architecture : GuestArchitecture) :
    Result SnapshotConnector := do
  new "hyperv-core" "Hyper-V Converted Core" architecture
    (← SnapshotBundle.convertedCoreFile host decoders path)

def openBhyveManifest : Result SnapshotConnector :=
  openManifest host path "bhyve" "bhyve Saved State" .amd64

def openBhyveConvertedCore : Result SnapshotConnector := do
  new "bhyve-core" "bhyve Converted Core" .amd64
    (← SnapshotBundle.convertedCoreFile host decoders path)

def openFirecrackerManifest : Result SnapshotConnector :=
  openManifest host path "firecracker" "Firecracker Snapshot" .amd64

def openCloudHypervisorManifest (architecture : GuestArchitecture) :
    Result SnapshotConnector :=
  openManifest host path "cloud-hypervisor" "Cloud Hypervisor Snapshot"
    architecture

def openXenCore (architecture : GuestArchitecture) :
    Result SnapshotConnector := do
  new "xen-core" "Xen Core Dump" architecture
    (← SnapshotBundle.xenCoreFile host path)

def openKdmp : Result SnapshotConnector := do
  new "windows-kdmp" "Windows Kernel/Complete Dump" .amd64
    (← SnapshotBundle.kdmpFile host decoders path)

end SnapshotConnector

/-! What a connector for a file accepts. -/

def dumpTerms {ω : Type} (self : DumpConnector) : Terms ω DumpSession where
  valid := .ok ()
  descriptor := self.descriptor
  isTarget := fun expected => decide (expected = self.target.id)
  notFound := fun expected =>
    .backend ("dump target " ++ expected ++ " not found")
  openSession := fun world =>
    (world, .ok ⟨self.descriptor, self.target, self.bundle⟩)

def snapshotTerms {ω : Type} (self : SnapshotConnector) :
    Terms ω SnapshotSession where
  valid := .ok ()
  descriptor := self.descriptor
  isTarget := fun expected => decide (expected = self.target.id ∨
    self.target.displayName = some expected)
  notFound := fun expected =>
    .backend ("snapshot target " ++ expected ++ " not found")
  openSession := fun world =>
    (world, .ok ⟨self.descriptor, self.target, self.bundle⟩)

theorem dump_connect {ω : Type} (self : DumpConnector) (world : ω)
    (request : AttachRequest) :
    (world, self.connect request) = (dumpTerms self).connect world request := by
  unfold DumpConnector.connect Terms.connect dumpTerms
  dsimp only
  split
  · rfl
  · cases request.selector with
    | any => rfl
    | named name => by_cases same : name = self.target.id <;> simp [same]

theorem snapshot_connect {ω : Type} (self : SnapshotConnector) (world : ω)
    (request : AttachRequest) :
    (world, self.connect request) =
      (snapshotTerms self).connect world request := by
  unfold SnapshotConnector.connect Terms.connect snapshotTerms
  dsimp only
  split
  · rfl
  · cases request.selector with
    | any => rfl
    | named name =>
        by_cases known : name = self.target.id ∨
          self.target.displayName = some name
        · have named : ¬ (name ≠ self.target.id ∧
              self.target.displayName ≠ some name) :=
            fun unknown => known.elim unknown.1 unknown.2
          dsimp only
          rw [if_neg named, if_neg (by simp [known])]
        · dsimp only
          rw [if_pos (not_or.mp known), if_pos (by simp [known])]

theorem snapshot_connect_eq_ok {self : SnapshotConnector}
    {request : AttachRequest} {session : SnapshotSession} :
    self.connect request = .ok session ↔
      (snapshotTerms (ω := Unit) self).Accepts request ∧
        session = ⟨self.descriptor, self.target, self.bundle⟩ := by
  have settled := snapshot_connect self () request
  by_cases accepts : (snapshotTerms (ω := Unit) self).Accepts request
  · rw [Terms.connect_accepted accepts] at settled
    rw [(Prod.mk.inj settled).2]
    simp [accepts, eq_comm]
  · rw [Terms.connect_refused accepts] at settled
    rw [(Prod.mk.inj settled).2]
    simp [accepts]

/-! Cores of a machine, whichever way they are opened. -/

namespace SnapshotConnector

theorem new_eq_ok {providerId displayName : String}
    {architecture : GuestArchitecture} {bundle : SnapshotBundle}
    {connector : SnapshotConnector}
    (made : new providerId displayName architecture bundle = .ok connector) :
    connector.bundle = bundle ∧
      connector.target.id = bundle.provenance.source ∧
      connector.descriptor.capabilities = .fromCaps [.memoryRead] := by
  unfold new at made
  obtain ⟨_, _, rest⟩ := bind_eq_ok.mp made
  cases rest
  exact ⟨rfl, rfl, rfl⟩

theorem new_named {providerId displayName : String}
    (named : ¬ (providerId = "" ∨ displayName = ""))
    (architecture : GuestArchitecture) (bundle : SnapshotBundle) :
    ∃ connector, new providerId displayName architecture bundle =
      .ok connector := by
  unfold new
  rw [rejectIf_neg named]
  exact ⟨_, rfl⟩

/-- The openers of cores that a hypervisor or a converter has written. -/
def coreOpeners (decoders : Decoders) (architecture : GuestArchitecture) :
    List (Host → String → Result SnapshotConnector) :=
  [fun host path => openVirtualboxCore host path architecture,
    fun host path => openXenCore host path architecture,
    fun host path => openVmwareConvertedCore host decoders path architecture,
    fun host path => openHypervConvertedCore host decoders path architecture,
    fun host path => openBhyveConvertedCore host decoders path]

/-- The file is a core of the machine, as far as it can be read. -/
def SeesCore (guest : Guest) (host : Host) (path : String) : Prop :=
  ∀ file, host.openFile (Path.parse path) = .ok file →
    guest.IsCore file.source.bytes

variable {guest : Guest} {host : Host} {path : String}
  {bundle : SnapshotBundle}

theorem elf_shows (core : SeesCore guest host path) {description format}
    (loaded : (do
      let data ← readFileLimited host path defaultMaxArtifactSize description
      fromElfWithLimits path data format defaultMaxArtifactSize) =
        .ok bundle) :
    guest.Shows bundle := by
  obtain ⟨data, read, decoded⟩ := bind_eq_ok.mp loaded
  obtain ⟨file, _, opened, _, _, same⟩ := readFileLimited_bytes read
  exact (core file opened).shows same decoded

theorem not_kdmp (core : SeesCore guest host path) {decoders : Decoders}
    {maximum : UInt64} :
    SnapshotBundle.kdmpFileWithLimit host decoders path maximum ≠
      .ok bundle := by
  intro loaded
  simp only [SnapshotBundle.kdmpFileWithLimit, bind_eq_ok] at loaded
  obtain ⟨_, _, data, read, decoded, decodes, dump⟩ := loaded
  obtain ⟨file, _, opened, _, _, same⟩ := readFileLimited_bytes read
  have elf : elfMagic <+: data.bytes := same ▸ (core file opened).magic
  unfold Decoders.decode at decodes
  cases detected : Encoding.detect data.bytes with
  | some encoding =>
      exact Encoding.magic_not_elf (Encoding.detect_magic detected) elf
  | none =>
      rw [detected] at decodes
      cases decodes
      exact startsDump_not_elf (.inl (dump_signed dump)) elf

theorem converted_shows (core : SeesCore guest host path)
    {decoders : Decoders}
    (loaded : SnapshotBundle.convertedCoreFile host decoders path =
      .ok bundle) : guest.Shows bundle := by
  unfold SnapshotBundle.convertedCoreFile at loaded
  obtain ⟨start, _, rest⟩ := bind_eq_ok.mp loaded
  split at rest
  · exact elf_shows core rest
  · split at rest
    · exact absurd rest (not_kdmp core)
    · cases rest

theorem opened_shows (core : SeesCore guest host path) {decoders : Decoders}
    {architecture : GuestArchitecture}
    {opener : Host → String → Result SnapshotConnector}
    (listed : opener ∈ coreOpeners decoders architecture)
    {connector : SnapshotConnector}
    (opened : opener host path = .ok connector) :
    guest.Shows connector.bundle := by
  have cases := listed
  simp only [coreOpeners, List.mem_cons, List.not_mem_nil, or_false] at cases
  obtain rfl | rfl | rfl | rfl | rfl := cases
  all_goals
    obtain ⟨bundle, loaded, made⟩ := bind_eq_ok.mp opened
    rw [(new_eq_ok made).1]
  · exact elf_shows core loaded
  · exact elf_shows core loaded
  · exact converted_shows core loaded
  · exact converted_shows core loaded
  · exact converted_shows core loaded

/-- Where the file can be read, every opener takes it. -/
theorem core_opens {file : File} {data : Buffer} (loadable : Loadable data)
    (magic : elfMagic <+: data.bytes)
    (found : host.openFile (Path.parse path) = .ok file)
    (holds : file.Holds data) {decoders : Decoders}
    {architecture : GuestArchitecture}
    {opener : Host → String → Result SnapshotConnector}
    (listed : opener ∈ coreOpeners decoders architecture) :
    ∃ connector, opener host path = .ok connector ∧
      connector.target.id = path ∧
      connector.descriptor.capabilities = .fromCaps [.memoryRead] := by
  have read := fun description => readFileLimited_holds found holds
    (show defaultMaxArtifactSize ≠ 0 by decide) loadable.size description
  have elf (description format : String) : ∃ bundle, (do
      let data ← readFileLimited host path defaultMaxArtifactSize description
      fromElfWithLimits path data format defaultMaxArtifactSize) = .ok bundle ∧
        bundle.provenance.source = path := by
    obtain ⟨bundle, loaded⟩ := loadable.loads path format
    refine ⟨bundle, by rw [read, ok_bind, loaded], ?_⟩
    obtain ⟨_, _, _, _, _, _, _, _, _, _, _, _, _, provenance⟩ :=
      fromElf_eq_ok.mp loaded
    rw [provenance]
  have starts : elfMagic <+: (data.first 8).bytes :=
    List.prefix_take_iff.mpr ⟨magic, by decide⟩
  have converted : ∃ bundle,
      SnapshotBundle.convertedCoreFile host decoders path = .ok bundle ∧
        bundle.provenance.source = path := by
    unfold SnapshotBundle.convertedCoreFile
    rw [readFilePrefix_holds found holds (show 8 < 2 ^ 63 by decide), ok_bind,
      if_pos starts]
    exact elf "ELF artifact" "elf-vmcore"
  have opens (providerId displayName : String)
      (named : ¬ (providerId = "" ∨ displayName = ""))
      (architecture : GuestArchitecture) {loaded : Result SnapshotBundle}
      (given : ∃ bundle, loaded = .ok bundle ∧
        bundle.provenance.source = path) :
      ∃ connector,
        (loaded >>= new providerId displayName architecture) = .ok connector ∧
        connector.target.id = path ∧
        connector.descriptor.capabilities = .fromCaps [.memoryRead] := by
    obtain ⟨bundle, loaded, source⟩ := given
    obtain ⟨connector, made⟩ := new_named named architecture bundle
    obtain ⟨_, idEq, advertised⟩ := new_eq_ok made
    exact ⟨connector, bind_eq_ok.mpr ⟨bundle, loaded, made⟩,
      idEq.trans source, advertised⟩
  have cases := listed
  simp only [coreOpeners, List.mem_cons, List.not_mem_nil, or_false] at cases
  obtain rfl | rfl | rfl | rfl | rfl := cases
  · exact opens "virtualbox-core" "VirtualBox VM Core" (by decide) architecture
      (elf _ _)
  · exact opens "xen-core" "Xen Core Dump" (by decide) architecture (elf _ _)
  · exact opens "vmware-core" "VMware Converted Core" (by decide) architecture
      converted
  · exact opens "hyperv-core" "Hyper-V Converted Core" (by decide) architecture
      converted
  · exact opens "bhyve-core" "bhyve Converted Core" (by decide) .amd64 converted

end SnapshotConnector

/-! A machine is saved, its core is opened, and a session is attached. -/

open SnapshotConnector

/-- The file that a command has dumped a core to. -/
theorem dumpCore_saves {guest : Guest} {around : Surroundings}
    (dumps : guest.Dumps around) {provider : String} {disk saved : Disk}
    {entry : Entry} {asked : Option Entry}
    (dumped : dumpCore provider around disk entry = ⟨saved, asked, .ok ()⟩) :
    disk.files.entries entry = none ∧
      (∃ content, Stored guest around saved entry content) ∧
      ∀ other, other ≠ entry → disk.files.Spares saved.files other := by
  by_cases ready : Ready around disk.files entry
  · rw [dumpCore_ready provider ready] at dumped
    cases result : around.dump.result with
    | error error =>
        rw [result] at dumped
        cases dumped
    | ok text =>
        rw [result] at dumped
        cases dumped
        obtain ⟨content, written, isCore⟩ := dumps.written text result
        exact ⟨ready.absent,
          ⟨content, written, isCore, dump_read written disk.files entry⟩,
          fun _ different => dump_spares around.dump ready.absent different⟩
  · obtain ⟨error, failed⟩ := dumpCore_unready provider ready
    rw [failed] at dumped
    cases dumped

/-- What was saved is read back through any of the openers: a session on the
core of a machine reads the machine as it was when the core was dumped. -/
theorem saved_snapshot_reads {guest : Guest} {around : Surroundings}
    (dumps : guest.Dumps around) {provider : String} {disk saved : Disk}
    {entry : Entry} {asked : Option Entry}
    (dumped : dumpCore provider around disk entry = ⟨saved, asked, .ok ()⟩)
    {decoders : Decoders} {architecture : GuestArchitecture}
    {opener : Host → String → Result SnapshotConnector}
    (listed : opener ∈ coreOpeners decoders architecture)
    (request : AttachRequest) :
    (disk.files.entries entry = none ∧
      ∀ other, other ≠ entry → disk.files.Spares saved.files other) ∧
    (∀ connector session,
      opener (coreHost around saved.files entry) (around.showEntry entry) =
        .ok connector → connector.connect request = .ok session →
      ∀ address output, output.length < Usize.limit →
        session.readInto address output =
          match guest.read address output.length with
          | some bytes => (bytes, .ok ())
          | none =>
              (output, .error (.readFailed address.raw output.length))) ∧
    (Willing around → ∃ connector,
      opener (coreHost around saved.files entry) (around.showEntry entry) =
        .ok connector ∧
      ((∃ session, connector.connect request = .ok session) ↔
        (request.requiredCapabilities.differenceOf
          (.fromCaps [.memoryRead])).isEmpty = true ∧
        ∀ name, request.selector = .named name →
          name = around.showEntry entry ∨
            connector.target.displayName = some name)) := by
  obtain ⟨absent, ⟨content, stored⟩, spared⟩ := dumpCore_saves dumps dumped
  refine ⟨⟨absent, spared⟩, ?_, ?_⟩
  · intro connector session opened attached address output bounded
    have core : SeesCore guest (coreHost around saved.files entry)
        (around.showEntry entry) := by
      intro file found
      simp only [coreHost, stored.read] at found
      rw [dumps.opened _ _ found]
      exact stored.isCore
    obtain ⟨_, rfl⟩ := snapshot_connect_eq_ok.mp attached
    exact Guest.readInto_shows (opened_shows core listed opened) address bounded
  · intro willing
    obtain ⟨data, file, rfl, loadable, opens, holds⟩ :=
      willing.opened content stored.written
    have found : (coreHost around saved.files entry).openFile
        (Path.parse (around.showEntry entry)) = .ok file := by
      simp only [coreHost, stored.read, opens]
    obtain ⟨connector, opened, idEq, advertised⟩ :=
      core_opens loadable stored.isCore.magic found holds listed
    refine ⟨connector, opened, ?_⟩
    simp only [snapshot_connect_eq_ok]
    constructor
    · rintro ⟨_, ⟨_, enough, known⟩, _⟩
      refine ⟨advertised ▸ enough, fun name named => ?_⟩
      simpa [snapshotTerms, idEq] using known name named
    · rintro ⟨enough, known⟩
      refine ⟨_, ⟨rfl, ?_, fun name named => ?_⟩, rfl⟩
      · simpa [snapshotTerms, advertised] using enough
      · simpa [snapshotTerms, idEq] using known name named

theorem saved_snapshot_reads_two_bytes :
    ∃ saved connector session,
      dumpCore "Xen" (quietHost twoPiecesCore) ⟨.empty, 0, 0⟩ Publisher.outBin =
        ⟨saved, some Publisher.outBin, .ok ()⟩ ∧
      openBhyveConvertedCore (coreHost (quietHost twoPiecesCore) saved.files
        Publisher.outBin) ⟨fun _ _ => ⟨[], []⟩, fun _ => none⟩ "out.bin" =
          .ok connector ∧
      connector.connect ⟨.named "out.bin", .empty⟩ = .ok session ∧
      session.readInto ⟨0x3000⟩ [0, 0] = ([5, 6], .ok ()) := by
  have ready : Ready (quietHost twoPiecesCore) FileSystem.empty Publisher.outBin :=
    ⟨rfl, rfl, rfl, rfl⟩
  have dumped := @dumpCore_ready "Xen" (quietHost twoPiecesCore) ⟨.empty, 0, 0⟩
    Publisher.outBin ready
  have listed : (fun host path => openBhyveConvertedCore host
      ⟨fun _ _ => ⟨[], []⟩, fun _ => none⟩ path) ∈
        coreOpeners ⟨fun _ _ => ⟨[], []⟩, fun _ => none⟩ .amd64 := by
    simp [coreOpeners]
  have shown : (quietHost twoPiecesCore).showEntry Publisher.outBin = "out.bin" := by
    decide
  obtain ⟨_, reads, opens⟩ := saved_snapshot_reads twoPieces_dumps
    dumped listed ⟨.named "out.bin", .empty⟩
  obtain ⟨connector, opened, accepts⟩ := opens twoPieces_willing
  obtain ⟨session, attached⟩ := accepts.mpr ⟨by decide, fun name named => by
    cases named
    exact .inl shown.symm⟩
  rw [shown] at opened reads
  have read := reads connector session opened attached ⟨0x3000⟩ [0, 0]
    (by decide)
  have held : twoPiecesGuest.read ⟨0x3000⟩ [(0 : UInt8), 0].length = some [5, 6] := by
    decide
  rw [held] at read
  exact ⟨_, connector, session, dumped, opened, attached, read⟩

end LibVmi.Attach
