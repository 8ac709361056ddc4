import LibVmi.Os.Guest
import LibVmi.Profile.SymbolTable

namespace LibVmi.Os

open Data Arch LibVmi.Core Profile

/-! The Linux introspector. Its growing lists and sets are assumed to find the
memory that they reserve. -/

structure LinuxTaskOffsets where
  tasks : UInt64
  pid : UInt64
  comm : UInt64
  commLength : Nat
  deriving DecidableEq, Repr

structure LinuxProcess where
  task : Gva
  pid : UInt32
  command : String
  deriving DecidableEq, Repr

structure LinuxModuleOffsets where
  list : UInt64
  name : UInt64
  nameLength : Nat
  coreBase : UInt64
  coreSize : UInt64
  deriving DecidableEq, Repr

structure LinuxModule where
  module : Gva
  name : String
  coreBase : Gva
  coreSize : UInt64
  deriving DecidableEq, Repr

structure LinuxDentryOffsets where
  parent : UInt64
  name : UInt64
  qstrLength : UInt64
  qstrName : UInt64
  maximumNameBytes : Nat
  deriving DecidableEq, Repr

structure LinuxMountOffsets where
  parent : UInt64
  mountpoint : UInt64
  root : UInt64
  deriving DecidableEq, Repr

structure LinuxSocketOffsets where
  sockFamily : UInt64
  sockProtocol : UInt64
  sockState : UInt64
  ipv4Source : UInt64
  ipv4Destination : UInt64
  ipv6Source : UInt64
  ipv6Destination : UInt64
  sourcePort : UInt64
  destinationPort : UInt64
  deriving DecidableEq, Repr

/-- An address as its octets. -/
inductive IpAddr where
  | v4 (octets : { bytes : List UInt8 // bytes.length = 4 })
  | v6 (octets : { bytes : List UInt8 // bytes.length = 16 })
  deriving DecidableEq, Repr

structure LinuxSocket where
  file : Gva
  socket : Gva
  sock : Gva
  family : UInt16
  protocol : UInt8
  state : UInt8
  source : IpAddr
  sourcePort : UInt16
  destination : IpAddr
  destinationPort : UInt16
  deriving DecidableEq, Repr

structure LinuxSocketListOffsets where
  nodeNext : UInt64
  nodeSock : UInt64
  deriving DecidableEq, Repr

structure LinuxSocketHashOffsets where
  bucketFirst : UInt64
  bucketStride : UInt64
  nodeNext : UInt64
  nodeSock : UInt64
  deriving DecidableEq, Repr

structure LinuxIntrospector (σ : Type) where
  session : VmiSession σ
  translator : AddressTranslator
  root : TranslationRoot
  profile : SymbolTable
  offsets : LinuxTaskOffsets

namespace LinuxIntrospector

def add (base offset : UInt64) (field : String) : Result UInt64 :=
  okOr (checkedAdd base offset) (.backend s!"Linux {field} address overflow")

def joinAbsolutePath (components : List String) (description : String) :
    Result String := do
  let separators := components.length - 1
  let fixed ← okOr (Usize.checkedAdd 1 separators)
    (.backend s!"{description} length overflow")
  let capacity ← components.foldlM
    (fun length component =>
      okOr (Usize.checkedAdd length component.utf8ByteSize)
        (.backend s!"{description} length overflow"))
    fixed
  tryReserveExact capacity s!"failed to allocate {description}"
  return components.zipIdx.foldl
    (fun path (component, index) =>
      (if index ≠ 0 then path.push '/' else path) ++ component)
    "/"

variable {σ : Type} [Session σ] (self : LinuxIntrospector σ)

/-- The read that every function of the introspector goes through. -/
def readVirtual (address : Gva) (length : Nat) : Result (List UInt8) :=
  (self.session.readVirtual self.translator self.root address length).2

def readArray (width : Nat) (address : UInt64) :
    Result { bytes : List UInt8 // bytes.length = width } := do
  let bytes ← self.readVirtual ⟨address⟩ width
  if whole : bytes.length = width then
    return ⟨bytes, whole⟩
  else
    .error (.backend s!"short Linux {width}-byte read")

def readU8 (address : UInt64) : Result UInt8 := do
  let bytes ← self.readArray 1 address
  return UInt8.ofNat (fromLe bytes.val)

def readU16 (address : UInt64) : Result UInt16 := do
  let bytes ← self.readArray 2 address
  return UInt16.ofNat (fromLe bytes.val)

def readU32 (address : UInt64) : Result UInt32 := do
  let bytes ← self.readVirtual ⟨address⟩ 4
  rejectIf (bytes.length ≠ 4) (.backend "short PID read")
  return UInt32.ofNat (fromLe bytes)

def readU64 (address : UInt64) : Result UInt64 := do
  let bytes ← self.readVirtual ⟨address⟩ 8
  rejectIf (bytes.length ≠ 8) (.backend "short pointer read")
  return UInt64.ofNat (fromLe bytes)

def readPort (address : UInt64) : Result UInt16 := do
  let bytes ← self.readArray 2 address
  return UInt16.ofNat (fromLe bytes.val.reverse)

def readProcess (task : UInt64) : Result LinuxProcess := do
  let pidAddress ← okOr (checkedAdd task self.offsets.pid)
    (.backend "PID address overflow")
  let pid ← self.readU32 pidAddress
  let commAddress ← okOr (checkedAdd task self.offsets.comm)
    (.backend "comm address overflow")
  let bytes ← self.readVirtual ⟨commAddress⟩ self.offsets.commLength
  let command ← decodeGuestBytes (truncateAtZero bytes) "Linux command name"
  return ⟨⟨task⟩, pid, command⟩

def readModule (module : UInt64) (offsets : LinuxModuleOffsets) :
    Result LinuxModule := do
  let nameAddress ← add module offsets.name "module name"
  let bytes ← self.readVirtual ⟨nameAddress⟩ offsets.nameLength
  let name ← decodeGuestBytes (truncateAtZero bytes) "Linux module name"
  let coreBase ← self.readU64 (← add module offsets.coreBase "module core base")
  let coreSize ← self.readU64 (← add module offsets.coreSize "module core size")
  return ⟨⟨module⟩, name, ⟨coreBase⟩, coreSize⟩

def decodeSock (file socket sockAddress : Gva) (offsets : LinuxSocketOffsets) :
    Result LinuxSocket := do
  let sock := sockAddress.raw
  let family ← self.readU16 (← add sock offsets.sockFamily "socket family")
  let protocol ← self.readU8 (← add sock offsets.sockProtocol "socket protocol")
  let state ← self.readU8 (← add sock offsets.sockState "socket state")
  let (source, destination) ←
    if family = 2 then do
      let source ← self.readArray 4 (← add sock offsets.ipv4Source "IPv4 source")
      let destination ← self.readArray 4
        (← add sock offsets.ipv4Destination "IPv4 destination")
      pure (IpAddr.v4 source, IpAddr.v4 destination)
    else if family = 10 then do
      let source ← self.readArray 16
        (← add sock offsets.ipv6Source "IPv6 source")
      let destination ← self.readArray 16
        (← add sock offsets.ipv6Destination "IPv6 destination")
      pure (IpAddr.v6 source, IpAddr.v6 destination)
    else
      .error (.backend s!"unsupported Linux socket family {family}")
  let sourcePort ← self.readPort
    (← add sock offsets.sourcePort "socket source port")
  let destinationPort ← self.readPort
    (← add sock offsets.destinationPort "socket destination port")
  return ⟨file, socket, sockAddress, family, protocol, state, source, sourcePort,
    destination, destinationPort⟩

def readDentryName (dentry : UInt64) (offsets : LinuxDentryOffsets) :
    Result String := do
  let qstr ← add dentry offsets.name "dentry name"
  let length ← self.readU32 (← add qstr offsets.qstrLength "qstr length")
  rejectIf (Usize.limit ≤ length.toNat)
    (.backend "Linux dentry name length is too large")
  rejectIf (offsets.maximumNameBytes < length.toNat)
    (.backend (s!"Linux dentry name length {length} exceeds limit "
      ++ s!"{offsets.maximumNameBytes}"))
  let pointer ← self.readU64 (← add qstr offsets.qstrName "qstr name")
  rejectIf (length ≠ 0 ∧ pointer = 0)
    (.backend "non-empty Linux dentry name has null pointer")
  if length = 0 then
    return ""
  else do
    let bytes ← self.readVirtual ⟨pointer⟩ length.toNat
    decodeGuestBytes bytes "Linux dentry name"

/-! Tasks, modules and sockets. -/

/-- One round of `processes`. It tests for the end before the limit. -/
def processRound (head : UInt64) (limit : Nat) (output : List LinuxProcess)
    (currentTask : UInt64) : Result (LinuxProcess × Option UInt64) := do
  let process ← self.readProcess currentTask
  let listNode ← okOr (checkedAdd currentTask self.offsets.tasks)
    (.backend "task list address overflow")
  let nextNode ← self.readU64 listNode
  if nextNode = head then
    return (process, none)
  else do
    rejectIf (limit ≤ output.length + 1)
      (.backend s!"Linux task list exceeded limit {limit}")
    let nextTask ← okOr (checkedSub nextNode self.offsets.tasks)
      (.backend s!"invalid Linux task list pointer {hex nextNode.toNat}")
    return (process, some nextTask)

/-- The first task, and the list node in it. -/
def processesHead (limit : Nat) : Result (UInt64 × UInt64) := do
  rejectIf (limit = 0 ∨ self.offsets.commLength = 0 ∨
      4096 < self.offsets.commLength)
    (.backend "invalid Linux traversal limit or comm length")
  let init ← okOr (self.profile.symbol "init_task")
    (.backend "profile does not contain init_task")
  let head ← okOr (checkedAdd init.address self.offsets.tasks)
    (.backend "init_task list address overflow")
  return (init.address, head)

def processes (limit : Nat) : Result (List LinuxProcess) := do
  let (init, head) ← self.processesHead limit
  let trail ← walk (self.processRound head limit)
    (fun task => .backend
      s!"Linux task list looped at unexpected task {hex task.toNat}")
    [] init
  return recordsOf trail

def moduleAt (offsets : LinuxModuleOffsets) (node : UInt64) :
    Result LinuxModule := do
  let module ← okOr (checkedSub node offsets.list)
    (.backend s!"invalid Linux module list pointer {hex node.toNat}")
  self.readModule module offsets

def modulesHead (offsets : LinuxModuleOffsets) (limit : Nat) :
    Result UInt64 := do
  rejectIf (limit = 0 ∨ offsets.nameLength = 0 ∨ 4096 < offsets.nameLength)
    (.backend "invalid Linux module traversal limit or name length")
  let modules ← okOr (self.profile.symbol "modules")
    (.backend "profile does not contain modules")
  return modules.address

def modules (offsets : LinuxModuleOffsets) (limit : Nat) :
    Result (List LinuxModule) := do
  let head ← self.modulesHead offsets limit
  let node ← self.readU64 head
  enumerateCircle (self.moduleAt offsets) self.readU64 head limit
    (.backend s!"Linux module list exceeded limit {limit}")
    (fun node => .backend
      s!"Linux module list looped at unexpected node {hex node.toNat}")
    node

def listedSock (listOffsets : LinuxSocketListOffsets)
    (socketOffsets : LinuxSocketOffsets) (node : UInt64) :
    Result LinuxSocket := do
  let sock ← self.readU64 (← add node listOffsets.nodeSock "socket-list sock")
  rejectIf (sock = 0)
    (.backend s!"Linux socket-list node {hex node.toNat} has null sock")
  self.decodeSock ⟨0⟩ ⟨0⟩ ⟨sock⟩ socketOffsets

def listNext (listOffsets : LinuxSocketListOffsets) (node : UInt64) :
    Result UInt64 := do
  self.readU64 (← add node listOffsets.nodeNext "socket-list next")

def socketsListHead (head : Gva) (limit : Nat) : Result UInt64 := do
  rejectIf (head.raw = 0 ∨ limit = 0)
    (.backend "invalid Linux socket-list arguments")
  return head.raw

def socketsFromList (head : Gva) (listOffsets : LinuxSocketListOffsets)
    (socketOffsets : LinuxSocketOffsets) (limit : Nat) :
    Result (List LinuxSocket) := do
  let head ← socketsListHead head limit
  let node ← self.readU64 head
  enumerateCircle (self.listedSock listOffsets socketOffsets)
    (self.listNext listOffsets) head limit
    (.backend s!"Linux socket list exceeded limit {limit}")
    (fun node => .backend
      s!"Linux socket list looped at unexpected node {hex node.toNat}")
    node

def hashedSock (hashOffsets : LinuxSocketHashOffsets)
    (socketOffsets : LinuxSocketOffsets) (node : UInt64) :
    Result LinuxSocket := do
  let sock ← self.readU64 (← add node hashOffsets.nodeSock "hash-node sock")
  rejectIf (sock = 0)
    (.backend s!"Linux socket hash node {hex node.toNat} has null sock")
  self.decodeSock ⟨0⟩ ⟨0⟩ ⟨sock⟩ socketOffsets

def hashNext (hashOffsets : LinuxSocketHashOffsets) (node : UInt64) :
    Result UInt64 := do
  self.readU64 (← add node hashOffsets.nodeNext "hash-node next")

/-- One round in a bucket. It tests the limit before it follows the link. -/
def hashRound (hashOffsets : LinuxSocketHashOffsets)
    (socketOffsets : LinuxSocketOffsets) (socketLimit : Nat)
    (output : List LinuxSocket) (node : UInt64) :
    Result (LinuxSocket × Option UInt64) := do
  let socket ← self.hashedSock hashOffsets socketOffsets node
  rejectIf (socketLimit < output.length + 1)
    (.backend s!"Linux socket hash table exceeded limit {socketLimit}")
  let next ← self.hashNext hashOffsets node
  return (socket, if next = 0 then none else some next)

def bucketAddress (table : UInt64) (hashOffsets : LinuxSocketHashOffsets)
    (bucket : Nat) : Result UInt64 := do
  let bucket : UInt64 ← okOr (tryFrom bucket)
    (.backend "Linux socket bucket index is too large")
  let offset ← okOr (checkedMul bucket hashOffsets.bucketStride)
    (.backend "Linux socket bucket offset overflow")
  okOr ((checkedAdd table offset).bind (checkedAdd · hashOffsets.bucketFirst))
    (.backend "Linux socket bucket overflow")

/-- A bucket starts with what the buckets before it have seen and found. -/
def bucketSockets (table : UInt64) (hashOffsets : LinuxSocketHashOffsets)
    (socketOffsets : LinuxSocketOffsets) (socketLimit : Nat)
    (trail : List (UInt64 × LinuxSocket)) (bucket : Nat) :
    Result (List (UInt64 × LinuxSocket)) := do
  let node ← self.readU64 (← bucketAddress table hashOffsets bucket)
  if node = 0 then
    return trail
  else
    walk (self.hashRound hashOffsets socketOffsets socketLimit)
      (fun node => .backend
        s!"Linux socket hash table repeats node {hex node.toNat}")
      trail node

def socketsFromHashTable (table : Gva) (bucketCount : Nat)
    (hashOffsets : LinuxSocketHashOffsets) (socketOffsets : LinuxSocketOffsets)
    (socketLimit : Nat) : Result (List LinuxSocket) := do
  rejectIf (table.raw = 0 ∨ bucketCount = 0 ∨ 1048576 < bucketCount ∨
      hashOffsets.bucketStride = 0 ∨ socketLimit = 0)
    (.backend "invalid Linux socket hash-table arguments")
  let trail ← (List.range bucketCount).foldlM
    (self.bucketSockets table.raw hashOffsets socketOffsets socketLimit) []
  return recordsOf trail

/-! Paths. A round gives the component that it collects, if any. -/

def collected (components : List (Option String)) : List String :=
  components.filterMap id

/-- One round of `dentry_path`, which reads the name in its own way. -/
def dentryRound (offsets : LinuxDentryOffsets) (componentLimit : Nat)
    (components : List (Option String)) (current : UInt64) :
    Result (Option String × Option UInt64) := do
  let qstr ← add current offsets.name "dentry name"
  let length ← self.readU32 (← add qstr offsets.qstrLength "qstr length")
  rejectIf (Usize.limit ≤ length.toNat)
    (.backend "Linux dentry name length is too large")
  rejectIf (offsets.maximumNameBytes < length.toNat)
    (.backend (s!"Linux dentry name length {length} exceeds limit "
      ++ s!"{offsets.maximumNameBytes}"))
  let pointer ← self.readU64 (← add qstr offsets.qstrName "qstr name")
  rejectIf (length ≠ 0 ∧ pointer = 0)
    (.backend "non-empty Linux dentry name has null pointer")
  let component ←
    if length ≠ 0 then do
      let bytes ← self.readVirtual ⟨pointer⟩ length.toNat
      let name ← decodeGuestBytes bytes "Linux dentry name"
      pure (if name ≠ "/" then some name else none)
    else
      pure none
  let parent ← self.readU64 (← add current offsets.parent "dentry parent")
  rejectIf (parent = 0)
    (.backend s!"Linux dentry {hex current.toNat} has null parent")
  if parent = current then
    return (component, none)
  else do
    rejectIf (componentLimit ≤ (collected (components ++ [component])).length)
      (.backend s!"Linux dentry path exceeded component limit {componentLimit}")
    return (component, some parent)

def dentryPathStart (dentry : Gva) (offsets : LinuxDentryOffsets)
    (componentLimit : Nat) : Result UInt64 := do
  rejectIf (dentry.raw = 0 ∨ componentLimit = 0 ∨
      offsets.maximumNameBytes = 0 ∨ 65536 < offsets.maximumNameBytes)
    (.backend "invalid Linux dentry path arguments")
  return dentry.raw

def dentryPath (dentry : Gva) (offsets : LinuxDentryOffsets)
    (componentLimit : Nat) : Result String := do
  let start ← dentryPathStart dentry offsets componentLimit
  let trail ← walk (self.dentryRound offsets componentLimit)
    (fun current => .backend
      s!"Linux dentry ancestry looped at {hex current.toNat}")
    [] start
  joinAbsolutePath (collected (recordsOf trail)).reverse "Linux dentry path"

/-- The dentries that `dentry_path` visits before it returns. -/
def dentryVisits (dentry : Gva) (offsets : LinuxDentryOffsets)
    (componentLimit : Nat) : List UInt64 :=
  match dentryPathStart dentry offsets componentLimit with
  | .error _ => []
  | .ok start => visited (self.dentryRound offsets componentLimit) [] start

/-- One round of `mounted_path`. It crosses to the parent mount, or collects the
name of the dentry and tests the limit before it reads the parent. -/
def mountedRound (dentryOffsets : LinuxDentryOffsets)
    (mountOffsets : LinuxMountOffsets) (componentLimit : Nat)
    (components : List (Option String)) (position : UInt64 × UInt64) :
    Result (Option String × Option (UInt64 × UInt64)) := do
  let (currentDentry, currentMount) := position
  let mountRoot ← self.readU64
    (← add currentMount mountOffsets.root "mount root")
  rejectIf (mountRoot = 0) (.backend "Linux mount has null root")
  if currentDentry = mountRoot then do
    let parentMount ← self.readU64
      (← add currentMount mountOffsets.parent "mount parent")
    rejectIf (parentMount = 0) (.backend "Linux mount has null parent")
    if parentMount = currentMount then
      return (none, none)
    else do
      let mountpoint ← self.readU64
        (← add currentMount mountOffsets.mountpoint "mountpoint")
      rejectIf (mountpoint = 0) (.backend "Linux mount has null mountpoint")
      return (none, some (mountpoint, parentMount))
  else do
    let name ← self.readDentryName currentDentry dentryOffsets
    rejectIf (componentLimit ≤ (collected components).length + 1)
      (.backend s!"Linux mounted path exceeded component limit {componentLimit}")
    let parent ← self.readU64
      (← add currentDentry dentryOffsets.parent "dentry parent")
    rejectIf (parent = 0)
      (.backend s!"Linux dentry {hex currentDentry.toNat} has null parent")
    return (some name, some (parent, currentMount))

def mountedPathStart (dentry mount : Gva) (offsets : LinuxDentryOffsets)
    (componentLimit : Nat) : Result (UInt64 × UInt64) := do
  rejectIf (dentry.raw = 0 ∨ mount.raw = 0 ∨ componentLimit = 0 ∨
      offsets.maximumNameBytes = 0 ∨ 65536 < offsets.maximumNameBytes)
    (.backend "invalid Linux mounted path arguments")
  return (dentry.raw, mount.raw)

/-- What `mounted_path` retains of what it has collected. -/
def retained (components : List String) : List String :=
  components.filter fun component => component ≠ "" ∧ component ≠ "/"

def mountedPath (dentry mount : Gva) (dentryOffsets : LinuxDentryOffsets)
    (mountOffsets : LinuxMountOffsets) (componentLimit : Nat) :
    Result String := do
  let start ← mountedPathStart dentry mount dentryOffsets componentLimit
  let trail ← walk (self.mountedRound dentryOffsets mountOffsets componentLimit)
    (fun (currentDentry, currentMount) => .backend
      (s!"Linux mounted path looped at dentry {hex currentDentry.toNat}, "
        ++ s!"mount {hex currentMount.toNat}"))
    [] start
  joinAbsolutePath (retained (collected (recordsOf trail))).reverse
    "Linux mounted path"

end LinuxIntrospector

/-! Guests whose addresses are those of their memory. -/

def identity : AddressTranslator :=
  ⟨0x4c494e55585f4944, fun _ _ address =>
    .ok ⟨⟨address.raw &&& ~~~0xfff⟩, 4096⟩⟩

/-- The introspector of a guest that holds these bytes from address zero on. -/
def inspector (bytes : List UInt8) : LinuxIntrospector FlatMemory :=
  ⟨⟨⟨bytes⟩, ⟨4096, ∅, []⟩⟩, identity, ⟨0⟩, ⟨∅, ∅⟩, ⟨0, 0, 0, 16⟩⟩

end LibVmi.Os
