import LibVmi.Data.Runs
import LibVmi.Xen.Connector

namespace LibVmi.Xen

open Data

variable {ω : Type} {host : Host ω}

/-! What the builders leave behind. A descriptor only gains capabilities, while
the transports are those set last. -/

theorem XenConnector.withCpuTransport_memory (connector : XenConnector ω)
    (cpu : XenCpuTransport ω) :
    (connector.withCpuTransport cpu).memory = connector.memory := by
  unfold withCpuTransport
  split <;> rfl

theorem XenConnector.withCpuTransport_events (connector : XenConnector ω)
    (cpu : XenCpuTransport ω) :
    (connector.withCpuTransport cpu).events = connector.events := by
  unfold withCpuTransport
  split <;> rfl

namespace Builder

theorem build_memory (connector : XenConnector ω)
    (builders : List (Builder ω)) :
    (build host connector builders).memory =
      ((builders.filterMap memory).getLast?).or connector.memory := by
  apply foldl_last_set
  intro current builder
  cases builder with
  | withCpuTransport cpu => exact current.withCpuTransport_memory cpu
  | _ => rfl

theorem build_cpu (connector : XenConnector ω) (builders : List (Builder ω)) :
    (build host connector builders).cpu =
      ((builders.filterMap (cpu host)).getLast?).or connector.cpu := by
  apply foldl_last_set
  intro current builder
  cases builder <;> rfl

theorem build_events (connector : XenConnector ω)
    (builders : List (Builder ω)) :
    (build host connector builders).events =
      ((builders.filterMap events).getLast?).or connector.events := by
  apply foldl_last_set
  intro current builder
  cases builder with
  | withCpuTransport cpu => exact current.withCpuTransport_events cpu
  | _ => rfl

theorem apply_contains (connector : XenConnector ω) (builder : Builder ω)
    (capability : Capability) :
    (apply host connector builder).descriptor.capabilities.containsCapability
        capability = true ↔
      capability ∈ builder.advertises ∨
        connector.descriptor.capabilities.containsCapability capability =
          true := by
  cases builder with
  | withMemoryTransport memory =>
      simp [apply, XenConnector.withMemoryTransport, XenConnector.advertise,
        advertises, or_assoc, or_left_comm]
  | withCpuTransport cpu =>
      by_cases writable : cpu.supportsWrite = true
      · simp [apply, XenConnector.withCpuTransport, XenConnector.advertise,
          advertises, writable, or_assoc, or_left_comm]
      · simp [apply, XenConnector.withCpuTransport, XenConnector.advertise,
          advertises, writable]
  | withXenctx domainId =>
      simp [apply, XenConnector.withXenctx, XenConnector.advertise, advertises]
  | withEventTransport events =>
      simp [apply, XenConnector.withEventTransport, XenConnector.advertise,
        advertises]

theorem build_contains (connector : XenConnector ω)
    (builders : List (Builder ω)) (capability : Capability) :
    (build host connector builders).descriptor.capabilities.containsCapability
        capability = true ↔
      (∃ builder ∈ builders, capability ∈ builder.advertises) ∨
        connector.descriptor.capabilities.containsCapability capability =
          true := by
  induction builders generalizing connector with
  | nil => simp [build]
  | cons builder builders induction =>
      have rest := induction (apply host connector builder)
      rw [apply_contains] at rest
      rw [build, List.foldl_cons, ← build, rest, ← or_assoc]
      simp [or_comm]

end Builder

/-! What a session answers. -/

def Missing (result : Result α) : Prop :=
  ∃ provider capability,
    result = .error (.capabilityMissing provider capability)

inductive Operation where
  | readInto (address : Gpa) (length : Nat)
  | write (address : Gpa) (data : List UInt8)
  | readRegister (vcpu : UInt32) (register : String)
  | writeRegister (vcpu : UInt32) (register : String) (value : UInt64)
  | nextEvent (timeout : Nat)
  | executionState
  | pause
  | resume

namespace Operation

def capability : Operation → Capability
  | .readInto _ _ => .memoryRead
  | .write _ _ => .memoryWrite
  | .readRegister _ _ => .registerRead
  | .writeRegister _ _ _ => .registerWrite
  | .nextEvent _ => .events
  | .executionState | .pause | .resume => .control

def MissingFrom (session : XenSession ω) (world : ω) : Operation → Prop
  | .readInto address length => Missing (session.readInto world address length).2
  | .write address data => Missing (session.write world address data).2
  | .readRegister vcpu register =>
      Missing (session.readRegister world vcpu register).2
  | .writeRegister vcpu register value =>
      Missing (session.writeRegister world vcpu register value).2
  | .nextEvent timeout => Missing (session.nextEvent world timeout).2
  | .executionState => Missing (session.executionState world).2
  | .pause => Missing (session.pause world).2
  | .resume => Missing (session.resume world).2

end Operation

/-- No transport answers by itself that a capability is missing. -/
structure XenSession.Forthright (session : XenSession ω) : Prop where
  execute : ∀ world arguments,
    ¬ Missing (session.transport.execute world arguments).2
  readInto : ∀ memory ∈ session.memory, ∀ world address length,
    ¬ Missing (memory.readInto world address length).2
  write : ∀ memory ∈ session.memory, ∀ world address data,
    ¬ Missing (memory.write world address data).2
  readRegister : ∀ cpu ∈ session.cpu, ∀ world vcpu register,
    ¬ Missing (cpu.readRegister world vcpu register).2
  writeRegister : ∀ cpu ∈ session.cpu, ∀ world vcpu register value,
    ¬ Missing (cpu.writeRegister world vcpu register value).2
  nextEvent : ∀ events ∈ session.events, ∀ world timeout,
    ¬ Missing (events.nextEvent world timeout).2

/-- The session hands out the facet, and none of its operations answers that the
capability is missing. -/
structure XenSession.Serves (session : XenSession ω) (capability : Capability) :
    Prop where
  facet : session.facet capability = .ok ()
  answered : session.Forthright → ∀ world (operation : Operation),
    operation.capability = capability → ¬ operation.MissingFrom session world

theorem not_missing_backend (message : String) :
    ¬ Missing (.error (.backend message) : Result α) := by
  intro ⟨provider, capability, same⟩
  exact absurd (Except.error.inj same) nofun

theorem not_missing_validateRegister {register : String} {error : VmiError}
    (refused : validateRegister register = .error error) :
    ¬ Missing (.error error : Result α) := by
  obtain ⟨_, same⟩ := rejectIf_eq_error.mp refused
  subst same
  exact not_missing_backend _

theorem not_missing_bind {result : Result α} {next : α → Result β}
    (clear : ¬ Missing result) (later : ∀ value, ¬ Missing (next value)) :
    ¬ Missing (result.bind next) := by
  cases result with
  | ok value => exact later value
  | error error =>
      intro ⟨provider, capability, same⟩
      exact clear ⟨provider, capability, congrArg _ (Except.error.inj same)⟩

theorem not_missing_map {result : Result α} (convert : α → β)
    (clear : ¬ Missing result) : ¬ Missing (result.map convert) := by
  cases result with
  | ok value => exact fun ⟨_, _, same⟩ => nomatch same
  | error error =>
      intro ⟨provider, capability, same⟩
      exact clear ⟨provider, capability, congrArg _ (Except.error.inj same)⟩

theorem not_missing_parseState (output domain : String) :
    ¬ Missing (parseState output domain) := by
  intro ⟨provider, capability, same⟩
  obtain refused | ⟨line, _, rest⟩ := bind_eq_error.mp same
  · exact absurd (okOr_eq_error.mp refused).2 nofun
  · obtain refused | ⟨state, _, done⟩ := bind_eq_error.mp rest
    · exact absurd (okOr_eq_error.mp refused).2 nofun
    · exact nomatch done

namespace XenSession

variable {session : XenSession ω}

theorem serves_memoryRead {memory : XenMemoryTransport ω}
    (set : session.memory = some memory) : session.Serves .memoryRead where
  facet := by simp [facet, facetOf, set]
  answered := by
    intro forthright world operation needed
    cases operation with
    | readInto address length =>
        have clear := forthright.readInto memory set world address length
        simpa [Operation.MissingFrom, readInto, requireTransport, set]
          using clear
    | _ => contradiction

theorem serves_memoryWrite {memory : XenMemoryTransport ω}
    (set : session.memory = some memory) : session.Serves .memoryWrite where
  facet := by simp [facet, facetOf, set]
  answered := by
    intro forthright world operation needed
    cases operation with
    | write address data =>
        have clear := forthright.write memory set world address data
        simpa [Operation.MissingFrom, write, requireTransport, set] using clear
    | _ => contradiction

theorem serves_registerRead {cpu : XenCpuTransport ω}
    (set : session.cpu = some cpu) : session.Serves .registerRead where
  facet := by simp [facet, facetOf, set]
  answered := by
    intro forthright world operation needed
    cases operation with
    | readRegister vcpu register =>
        simp only [Operation.MissingFrom, readRegister]
        cases valid : validateRegister register with
        | error error => exact not_missing_validateRegister valid
        | ok done =>
            have clear := forthright.readRegister cpu set world vcpu register
            simpa [requireTransport, set] using clear
    | _ => contradiction

theorem serves_registerWrite {cpu : XenCpuTransport ω}
    (set : session.cpu = some cpu) (writable : cpu.supportsWrite = true) :
    session.Serves .registerWrite where
  facet := by simp [facet, facetOf, set]
  answered := by
    intro forthright world operation needed
    cases operation with
    | writeRegister vcpu register value =>
        simp only [Operation.MissingFrom, writeRegister]
        cases valid : validateRegister register with
        | error error => exact not_missing_validateRegister valid
        | ok done =>
            have clear :=
              forthright.writeRegister cpu set world vcpu register value
            simpa [requireTransport, set, writable] using clear
    | _ => contradiction

theorem serves_events {events : XenEventTransport ω}
    (set : session.events = some events) : session.Serves .events where
  facet := by simp [facet, facetOf, set]
  answered := by
    intro forthright world operation needed
    cases operation with
    | nextEvent timeout =>
        have clear := forthright.nextEvent events set world timeout
        simpa [Operation.MissingFrom, nextEvent, requireTransport, set]
          using clear
    | _ => contradiction

theorem serves_control : session.Serves .control where
  facet := rfl
  answered := by
    intro forthright world operation needed
    cases operation with
    | executionState =>
        exact not_missing_bind (forthright.execute world _)
          fun output => not_missing_parseState output session.target.id
    | pause => exact not_missing_map _ (forthright.execute world _)
    | resume => exact not_missing_map _ (forthright.execute world _)
    | _ => contradiction

theorem serves_acquisition : session.Serves .acquisition where
  facet := rfl
  answered := by
    intro forthright world operation needed
    cases operation <;> contradiction

end XenSession

namespace XenConnector

variable {connector : XenConnector ω}

def session (connector : XenConnector ω) : XenSession ω :=
  ⟨connector.descriptor, connector.target, connector.transport,
    connector.memory, connector.cpu, connector.events⟩

theorem openSession_eq_ok {world next : ω} {session : XenSession ω}
    (opened : connector.openSession world = (next, .ok session)) :
    session = connector.session := by
  have outcome := congrArg Prod.snd opened
  simp only [openSession] at outcome
  obtain ⟨state, _, same⟩ := map_eq_ok.mp outcome
  exact same.symm

theorem connect_eq_ok {world next : ω} {request : AttachRequest}
    {session : XenSession ω}
    (connected : connector.connect world request = (next, .ok session)) :
    (request.requiredCapabilities.differenceOf
        connector.descriptor.capabilities).isEmpty = true ∧
      session = connector.session := by
  unfold connect at connected
  split at connected
  · exact absurd (congrArg Prod.snd connected) nofun
  · simp only at connected
    split at connected
    · exact absurd (congrArg Prod.snd connected) nofun
    · rename_i _ enough
      rw [Bool.not_eq_false] at enough
      split at connected
      · split at connected
        · exact absurd (congrArg Prod.snd connected) nofun
        · exact ⟨enough, openSession_eq_ok connected⟩
      · exact ⟨enough, openSession_eq_ok connected⟩

end XenConnector

/-! The claim about a connector. -/

structure XenConnector.CapabilitiesMatch (connector : XenConnector ω) : Prop where
  memoryRead :
    connector.descriptor.capabilities.containsCapability .memoryRead = true ↔
      ∃ memory, connector.memory = some memory
  memoryWrite :
    connector.descriptor.capabilities.containsCapability .memoryWrite = true ↔
      ∃ memory, connector.memory = some memory
  registerRead :
    connector.descriptor.capabilities.containsCapability .registerRead =
      true ↔ ∃ cpu, connector.cpu = some cpu
  registerWrite :
    connector.descriptor.capabilities.containsCapability .registerWrite =
      true ↔ ∃ cpu, connector.cpu = some cpu ∧ cpu.supportsWrite = true
  events :
    connector.descriptor.capabilities.containsCapability .events = true ↔
      ∃ events, connector.events = some events
  served : ∀ world request next session,
    connector.connect world request = (next, .ok session) →
      ∀ capability,
        request.requiredCapabilities.containsCapability capability = true →
          session.Serves capability

namespace XenConnector

variable {connector : XenConnector ω}

/-- What the connector holds for a capability. -/
def Backed (connector : XenConnector ω) : Capability → Prop
  | .memoryRead | .memoryWrite => ∃ memory, connector.memory = some memory
  | .registerRead => ∃ cpu, connector.cpu = some cpu
  | .registerWrite =>
      ∃ cpu, connector.cpu = some cpu ∧ cpu.supportsWrite = true
  | .events => ∃ events, connector.events = some events
  | .control | .acquisition => True
  | .memoryView | .lifecycle => False

theorem Backed.serves {capability : Capability}
    (backed : connector.Backed capability) :
    connector.session.Serves capability := by
  cases capability with
  | memoryRead =>
      obtain ⟨_, set⟩ := backed
      exact XenSession.serves_memoryRead set
  | memoryWrite =>
      obtain ⟨_, set⟩ := backed
      exact XenSession.serves_memoryWrite set
  | registerRead =>
      obtain ⟨_, set⟩ := backed
      exact XenSession.serves_registerRead set
  | registerWrite =>
      obtain ⟨_, set, writable⟩ := backed
      exact XenSession.serves_registerWrite set writable
  | events =>
      obtain ⟨_, set⟩ := backed
      exact XenSession.serves_events set
  | control => exact XenSession.serves_control
  | acquisition => exact XenSession.serves_acquisition
  | memoryView => contradiction
  | lifecycle => contradiction

/-- A descriptor that lists what the connector holds is what the sessions need. -/
theorem capabilitiesMatch_of_backed
    (described : ∀ capability,
      connector.descriptor.capabilities.containsCapability capability = true ↔
        connector.Backed capability) : connector.CapabilitiesMatch where
  memoryRead := described .memoryRead
  memoryWrite := described .memoryWrite
  registerRead := described .registerRead
  registerWrite := described .registerWrite
  events := described .events
  served := by
    intro world request next session connected capability needed
    obtain ⟨enough, same⟩ := connect_eq_ok connected
    subst same
    apply Backed.serves
    apply (described capability).mp
    exact CapabilitySet.containsCapability_of_difference enough needed

end XenConnector

namespace Builder

variable (host) in
/-- The CPU transport set last can write, or none that was set can. -/
def WritingKept (builders : List (Builder ω)) : Prop :=
  ∀ last ∈ (builders.filterMap (cpu host)).getLast?,
    last.supportsWrite = false →
      ∀ earlier ∈ builders.filterMap (cpu host), earlier.supportsWrite = false

variable (host) in
/-- The builder sets what the capability is about. -/
def Sets (builder : Builder ω) : Capability → Prop
  | .memoryRead | .memoryWrite => ∃ memory, builder.memory = some memory
  | .registerRead => ∃ cpu, builder.cpu host = some cpu
  | .registerWrite =>
      ∃ cpu, builder.cpu host = some cpu ∧ cpu.supportsWrite = true
  | .events => ∃ events, builder.events = some events
  | .control | .memoryView | .acquisition | .lifecycle => False

variable (host) in
theorem mem_advertises {builder : Builder ω} {capability : Capability} :
    capability ∈ builder.advertises ↔ builder.Sets host capability := by
  cases builder with
  | withMemoryTransport transport =>
      cases capability <;> simp [advertises, Sets, memory, cpu, events]
  | withCpuTransport transport =>
      by_cases writable : transport.supportsWrite = true <;>
        cases capability <;>
          simp [advertises, Sets, memory, cpu, events, writable]
  | withXenctx domainId =>
      cases capability <;>
        simp [advertises, Sets, memory, cpu, events,
          XenCtxTransport.cpuTransport]
  | withEventTransport transport =>
      cases capability <;> simp [advertises, Sets, memory, cpu, events]

section WithTransport

variable (host) (domain : String) (architecture : GuestArchitecture)
  (transport : XlTransport ω) (builders : List (Builder ω))

theorem contains_build (capability : Capability) :
    (build host (.withTransport domain architecture transport)
        builders).descriptor.capabilities.containsCapability capability =
        true ↔
      (∃ builder ∈ builders, builder.Sets host capability) ∨
        capability = .control ∨ capability = .acquisition := by
  rw [build_contains]
  simp [mem_advertises host, XenConnector.withTransport]

theorem cpu_build :
    (build host (.withTransport domain architecture transport) builders).cpu =
      (builders.filterMap (cpu host)).getLast? := by
  rw [build_cpu]
  simp [XenConnector.withTransport]

/-- All but the bit for writing are exact whatever the calls. -/
theorem contains_iff_backed {capability : Capability}
    (other : capability ≠ .registerWrite) :
    (build host (.withTransport domain architecture transport)
        builders).descriptor.capabilities.containsCapability capability =
        true ↔
      (build host (.withTransport domain architecture transport)
        builders).Backed capability := by
  rw [contains_build]
  cases capability with
  | registerWrite => contradiction
  | memoryRead | memoryWrite =>
      simp [Sets, XenConnector.Backed, build_memory,
        XenConnector.withTransport, ← exists_last_set]
  | registerRead =>
      simp [Sets, XenConnector.Backed, cpu_build, ← exists_last_set]
  | events =>
      simp [Sets, XenConnector.Backed, build_events,
        XenConnector.withTransport, ← exists_last_set]
  | _ => simp [Sets, XenConnector.Backed]

/-- The bit for writing is exact where writing is kept, and only there. -/
theorem registerWrite_build :
    ((build host (.withTransport domain architecture transport)
        builders).descriptor.capabilities.containsCapability .registerWrite =
        true ↔
      ∃ cpu, (build host (.withTransport domain architecture transport)
        builders).cpu = some cpu ∧ cpu.supportsWrite = true) ↔
      WritingKept host builders := by
  have writers : (∃ builder ∈ builders, builder.Sets host .registerWrite) ↔
      ∃ cpu ∈ builders.filterMap (Builder.cpu host),
        cpu.supportsWrite = true := by
    simp only [Sets, List.mem_filterMap]
    constructor
    · intro ⟨builder, member, cpu, sets, writable⟩
      exact ⟨cpu, ⟨builder, member, sets⟩, writable⟩
    · intro ⟨cpu, ⟨builder, member, sets⟩, writable⟩
      exact ⟨builder, member, cpu, sets, writable⟩
  rw [contains_build, writers, cpu_build]
  simp only [reduceCtorEq, or_self, or_false]
  rw [exists_iff_last]
  simp only [WritingKept, Bool.not_eq_true]

end WithTransport

end Builder

/-- The capabilities of a connector match its transports where the CPU transport
set last can write, or none that was set can, and only there. -/
theorem capabilities_match_iff (host : Host ω) (domain : String)
    (architecture : GuestArchitecture) (transport : XlTransport ω)
    (builders : List (Builder ω)) :
    (Builder.build host (.withTransport domain architecture transport)
        builders).CapabilitiesMatch ↔ Builder.WritingKept host builders := by
  rw [← Builder.registerWrite_build host domain architecture transport]
  constructor
  · intro matching
    exact matching.registerWrite
  · intro writing
    apply XenConnector.capabilitiesMatch_of_backed
    intro capability
    by_cases write : capability = .registerWrite
    · subst write
      exact writing
    · exact Builder.contains_iff_backed host domain architecture transport
        builders write

/-! A CPU transport that can write, replaced by one that cannot. -/

def writableCpu : XenCpuTransport Unit where
  readRegister := fun world _ _ => (world, .ok 1)
  supportsWrite := true
  writeRegister := fun world _ _ _ => (world, .ok ())

def guestListing : XlTransport Unit where
  execute := fun world _ =>
    (world, .ok
      "Name ID Mem VCPUs State Time(s)\nguest 7 1024 3 r----- 1.0\n")

def quietHost : Host Unit where
  runBoundedCommand := fun world _ _ _ _ => (world, .ok (⟨true, ""⟩, [], []))
  lossyTrimmed := fun _ => ""
  utf8Error := fun _ => ""

def replacedCpu : XenConnector Unit :=
  Builder.build quietHost (.withTransport "guest" .amd64 guestListing)
    [.withCpuTransport writableCpu, .withXenctx 7]

theorem capabilities_match_replaced_cpu :
    (∃ session, replacedCpu.connect () ⟨.any, .fromCaps [.registerWrite]⟩ =
        ((), .ok session) ∧
      session.writeRegister () 0 "rax" 9 =
        ((), .error (.capabilityMissing "xen-xl" .registerWrite))) ∧
    ¬ replacedCpu.CapabilitiesMatch := by
  constructor
  · exact ⟨replacedCpu.session, rfl, rfl⟩
  · intro matching
    obtain ⟨cpu, set, writable⟩ := matching.registerWrite.mp (by decide)
    obtain rfl := Option.some.inj set
    contradiction

end LibVmi.Xen
