import LibVmi.Capability
import LibVmi.Xen.Transports

namespace LibVmi.Xen

open Data

variable {ω : Type}

/-! The connector, its builders and the session it attaches. -/

inductive GuestArchitecture where
  | amd64
  | aarch64
  | unknown
  deriving DecidableEq, Repr

inductive ConsistencyMode where
  | liveBestEffort
  | paused
  | immutableSnapshot
  deriving DecidableEq, Repr

inductive ProviderMaturity where
  | supported
  | preview
  | experimental
  | compileOnly
  deriving DecidableEq, Repr

structure ProviderDescriptor where
  id : String
  displayName : String
  version : Option String
  maturity : ProviderMaturity
  capabilities : CapabilitySet
  deriving DecidableEq, Repr

structure TargetDescriptor where
  id : String
  displayName : Option String
  architecture : GuestArchitecture
  consistency : ConsistencyMode
  deriving DecidableEq, Repr

inductive TargetSelector where
  | any
  | named (name : String)
  deriving DecidableEq, Repr

structure AttachRequest where
  selector : TargetSelector
  requiredCapabilities : CapabilitySet
  deriving DecidableEq, Repr

inductive ExecutionState where
  | running
  | paused
  | shutdown
  | unknown
  deriving DecidableEq, Repr

structure XenConnector (ω : Type) where
  descriptor : ProviderDescriptor
  target : TargetDescriptor
  transport : XlTransport ω
  memory : Option (XenMemoryTransport ω)
  cpu : Option (XenCpuTransport ω)
  events : Option (XenEventTransport ω)

structure XenSession (ω : Type) where
  descriptor : ProviderDescriptor
  target : TargetDescriptor
  transport : XlTransport ω
  memory : Option (XenMemoryTransport ω)
  cpu : Option (XenCpuTransport ω)
  events : Option (XenEventTransport ω)

def validateTargetName (target description : String) : Result Unit :=
  rejectIf (target.toList = [] ∨ target.toList.head? = some '-' ∨
      target.toList.any isControl = true)
    (.backend ("invalid " ++ description ++ " target name"))

def stateOf (state : List Char) : ExecutionState :=
  if state.contains 'r' then .running
  else if state.contains 'p' then .paused
  else if state.contains 's' || state.contains 'd' || state.contains 'c' then
    .shutdown
  else .unknown

def parseState (output domain : String) : Result ExecutionState := do
  let line ← okOr
    ((lines output.toList).drop 1 |>.find? fun line =>
      (splitWhitespace line).head? == some domain.toList)
    (.backend ("xl output does not contain domain " ++ domain))
  let state ← okOr (splitWhitespace line)[4]?
    (.backend "xl list row lacks state")
  return stateOf state

/-! The operations of a session. -/

def requireTransport (transport : Option α) (providerId : String)
    (capability : Capability) : Result α :=
  okOr transport (.capabilityMissing providerId capability)

namespace XenSession

variable (self : XenSession ω) (world : ω)

def executionState : ω × Result ExecutionState :=
  let (world, output) := self.transport.execute world ["list", self.target.id]
  (world, output.bind fun output => parseState output self.target.id)

def pause : ω × Result Unit :=
  let (world, output) := self.transport.execute world ["pause", self.target.id]
  (world, output.map fun _ => ())

def resume : ω × Result Unit :=
  let (world, output) :=
    self.transport.execute world ["unpause", self.target.id]
  (world, output.map fun _ => ())

def readInto (address : Gpa) (length : Nat) :
    ω × Result { buffer : List UInt8 // buffer.length = length } :=
  match requireTransport self.memory self.descriptor.id .memoryRead with
  | .error error => (world, .error error)
  | .ok memory => memory.readInto world address length

def write (address : Gpa) (data : List UInt8) : ω × Result Unit :=
  match requireTransport self.memory self.descriptor.id .memoryWrite with
  | .error error => (world, .error error)
  | .ok memory => memory.write world address data

def readRegister (vcpu : UInt32) (register : String) : ω × Result UInt64 :=
  match validateRegister register with
  | .error error => (world, .error error)
  | .ok () =>
      match requireTransport self.cpu self.descriptor.id .registerRead with
      | .error error => (world, .error error)
      | .ok cpu => cpu.readRegister world vcpu register

/-- The transport is asked once more whether it can write. -/
def writeRegister (vcpu : UInt32) (register : String) (value : UInt64) :
    ω × Result Unit :=
  match validateRegister register with
  | .error error => (world, .error error)
  | .ok () =>
      match requireTransport self.cpu self.descriptor.id .registerWrite with
      | .error error => (world, .error error)
      | .ok cpu =>
          if cpu.supportsWrite = false then
            (world,
              .error (.capabilityMissing self.descriptor.id .registerWrite))
          else
            cpu.writeRegister world vcpu register value

def nextEvent (timeout : Nat) : ω × Result (Option VmiEvent) :=
  match requireTransport self.events self.descriptor.id .events with
  | .error error => (world, .error error)
  | .ok events => events.nextEvent world timeout

/-! Whether the session hands out the facet of a capability. -/

def facetOf (transport : Option α) (capability : Capability) : Result Unit :=
  if transport.isSome then .ok ()
  else .error (.capabilityMissing self.descriptor.id capability)

def facet : Capability → Result Unit
  | .memoryRead => self.facetOf self.memory .memoryRead
  | .memoryWrite => self.facetOf self.memory .memoryWrite
  | .registerRead | .registerWrite => self.facetOf self.cpu .registerRead
  | .control => .ok ()
  | .events => self.facetOf self.events .events
  | .memoryView =>
      .error (.capabilityMissing self.descriptor.id .memoryView)
  | .acquisition => .ok ()
  | .lifecycle =>
      .error (.capabilityMissing self.descriptor.id .lifecycle)

end XenSession

namespace XenConnector

def withTransport (domain : String) (architecture : GuestArchitecture)
    (transport : XlTransport ω) : XenConnector ω where
  descriptor := {
    id := "xen-xl"
    displayName := "Xen xl"
    version := none
    maturity := .preview
    capabilities := .fromCaps [.control, .acquisition] }
  target := {
    id := domain
    displayName := some domain
    architecture := architecture
    consistency := .liveBestEffort }
  transport := transport
  memory := none
  cpu := none
  events := none

def new (host : Host ω) (domain : String) (architecture : GuestArchitecture) :
    XenConnector ω :=
  withTransport domain architecture (ProcessTransport.default.xlTransport host)

/-- `insert_capability` on the descriptor. -/
def advertise (self : XenConnector ω) (capability : Capability) :
    XenConnector ω :=
  { self with
    descriptor := { self.descriptor with
      capabilities :=
        self.descriptor.capabilities.insertCapability capability } }

def withMemoryTransport (self : XenConnector ω)
    (memory : XenMemoryTransport ω) : XenConnector ω :=
  { (self.advertise .memoryRead).advertise .memoryWrite with
    memory := some memory }

def withCpuTransport (self : XenConnector ω) (cpu : XenCpuTransport ω) :
    XenConnector ω :=
  let readable := self.advertise .registerRead
  let described :=
    if cpu.supportsWrite then readable.advertise .registerWrite else readable
  { described with cpu := some cpu }

def withXenctx (self : XenConnector ω) (host : Host ω) (domainId : UInt32) :
    XenConnector ω :=
  { self.advertise .registerRead with
    cpu := some ((XenCtxTransport.new domainId).cpuTransport host) }

def withEventTransport (self : XenConnector ω)
    (events : XenEventTransport ω) : XenConnector ω :=
  { self.advertise .events with events := some events }

/-- What is left of `connect` once the request is accepted. -/
def openSession (self : XenConnector ω) (world : ω) :
    ω × Result (XenSession ω) :=
  let session : XenSession ω :=
    ⟨self.descriptor, self.target, self.transport, self.memory, self.cpu,
      self.events⟩
  let (world, state) := session.executionState world
  (world, state.map fun _ => session)

def connect (self : XenConnector ω) (world : ω) (request : AttachRequest) :
    ω × Result (XenSession ω) :=
  match validateTargetName self.target.id "Xen domain" with
  | .error error => (world, .error error)
  | .ok () =>
      let missing := request.requiredCapabilities.differenceOf
        self.descriptor.capabilities
      if missing.isEmpty = false then
        (world, .error (.attachRejected self.descriptor.id missing))
      else
        match request.selector with
        | .named expected =>
            if expected ≠ self.target.id then
              (world, .error (.backend ("Xen domain " ++ expected ++
                " does not match " ++ self.target.id)))
            else self.openSession world
        | .any => self.openSession world

end XenConnector

/-! Any sequence of builder calls. -/

inductive Builder (ω : Type) where
  | withMemoryTransport (memory : XenMemoryTransport ω)
  | withCpuTransport (cpu : XenCpuTransport ω)
  | withXenctx (domainId : UInt32)
  | withEventTransport (events : XenEventTransport ω)

namespace Builder

variable (host : Host ω)

def apply (connector : XenConnector ω) : Builder ω → XenConnector ω
  | .withMemoryTransport memory => connector.withMemoryTransport memory
  | .withCpuTransport cpu => connector.withCpuTransport cpu
  | .withXenctx domainId => connector.withXenctx host domainId
  | .withEventTransport events => connector.withEventTransport events

def build (connector : XenConnector ω) (builders : List (Builder ω)) :
    XenConnector ω :=
  builders.foldl (apply host) connector

def memory : Builder ω → Option (XenMemoryTransport ω)
  | .withMemoryTransport memory => some memory
  | _ => none

def cpu : Builder ω → Option (XenCpuTransport ω)
  | .withCpuTransport cpu => some cpu
  | .withXenctx domainId =>
      some ((XenCtxTransport.new domainId).cpuTransport host)
  | _ => none

def events : Builder ω → Option (XenEventTransport ω)
  | .withEventTransport events => some events
  | _ => none

def advertises : Builder ω → List Capability
  | .withMemoryTransport _ => [.memoryRead, .memoryWrite]
  | .withCpuTransport cpu =>
      if cpu.supportsWrite then [.registerRead, .registerWrite]
      else [.registerRead]
  | .withXenctx _ => [.registerRead]
  | .withEventTransport _ => [.events]

end Builder

end LibVmi.Xen
