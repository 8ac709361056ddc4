import LibVmi.Xen.Connector

namespace LibVmi.Libvirt

open Data
open Xen (GuestArchitecture ProviderDescriptor TargetDescriptor AttachRequest
  ExecutionState)

variable {ω : Type}

/-! The provider for libvirt, which talks to a domain through the commands of
`virsh`. The texts that it copies find the memory they need. -/

structure VirshTransport (ω : Type) where
  execute : ω → List String → ω × Result String

structure LibvirtConnector (ω : Type) where
  descriptor : ProviderDescriptor
  target : TargetDescriptor
  transport : VirshTransport ω
  uri : Option String

structure LibvirtSession (ω : Type) where
  descriptor : ProviderDescriptor
  target : TargetDescriptor
  transport : VirshTransport ω
  uri : Option String

def validateArgument (value description : String) : Result Unit :=
  rejectIf (value.toList = [] ∨ value.toList.head? = some '-' ∨
      value.toList.any isControl = true)
    (.backend ("invalid " ++ description))

def isQemuDomain (xml : String) : Bool :=
  ["type='kvm'", "type=\"kvm\"", "type='qemu'", "type=\"qemu\""].any
    fun marker => decide (marker.toList <:+: xml.toList)

def stateOf : String → ExecutionState
  | "running" | "idle" | "blocked" => .running
  | "paused" | "pmsuspended" => .paused
  | "shut off" | "shutdown" | "crashed" => .shutdown
  | _ => .unknown

/-- A path that a core is to be saved to: what looking for it has found, the
path as text where it is UTF-8, and whether the file is there in the end. -/
structure Destination where
  absent : Result Unit
  text : Option String
  isFile : Bool

namespace LibvirtSession

variable (self : LibvirtSession ω) (world : ω)

def execute (arguments : List String) : ω × Result String :=
  self.transport.execute world (match self.uri with
    | some uri => "--connect" :: uri :: arguments
    | none => arguments)

def executionState : ω × Result ExecutionState :=
  let (world, output) := self.execute world ["domstate", self.target.id]
  (world, output.map fun state =>
    stateOf (String.ofList ((trim state.toList).map Char.toLower)))

def pause : ω × Result Unit :=
  let (world, output) := self.execute world ["suspend", self.target.id]
  (world, output.map fun _ => ())

def resume : ω × Result Unit :=
  let (world, output) := self.execute world ["resume", self.target.id]
  (world, output.map fun _ => ())

def saveSnapshot (destination : Destination) : ω × Result Unit :=
  match destination.absent with
  | .error error => (world, .error error)
  | .ok () =>
      match destination.text with
      | none => (world, .error (.backend "libvirt core path is not UTF-8"))
      | some path =>
          let (world, output) := self.execute world ["dump", self.target.id,
            path, "--memory-only", "--live", "--format", "elf"]
          (world, output.bind fun _ => rejectIf (destination.isFile = false)
            (.backend "virsh reported success without creating the core"))

end LibvirtSession

namespace LibvirtConnector

def withTransport (domain : String) (architecture : GuestArchitecture)
    (transport : VirshTransport ω) : LibvirtConnector ω where
  descriptor := {
    id := "libvirt-qemu"
    displayName := "libvirt QEMU/KVM"
    version := none
    maturity := .experimental
    capabilities := .fromCaps [.control, .acquisition] }
  target := {
    id := domain
    displayName := some domain
    architecture := architecture
    consistency := .liveBestEffort }
  transport := transport
  uri := none

def withUri (self : LibvirtConnector ω) (uri : String) : LibvirtConnector ω :=
  { self with uri := some uri }

def validate (self : LibvirtConnector ω) : Result Unit := do
  validateArgument self.target.id "libvirt domain"
  match self.uri with
  | some uri => validateArgument uri "libvirt URI"
  | none => return ()

/-- What is left of `connect` once the request is accepted. -/
def openSession (self : LibvirtConnector ω) (world : ω) :
    ω × Result (LibvirtSession ω) :=
  let session : LibvirtSession ω :=
    ⟨self.descriptor, self.target, self.transport, self.uri⟩
  let (world, xml) := session.execute world ["dumpxml", self.target.id]
  match xml with
  | .error error => (world, .error error)
  | .ok xml =>
      if isQemuDomain xml = false then
        (world, .error (.backend "libvirt domain is not a QEMU/KVM domain"))
      else
        let (world, state) := session.executionState world
        (world, state.map fun _ => session)

def connect (self : LibvirtConnector ω) (world : ω)
    (request : AttachRequest) : ω × Result (LibvirtSession ω) :=
  match self.validate with
  | .error error => (world, .error error)
  | .ok () =>
      let missing := request.requiredCapabilities.differenceOf
        self.descriptor.capabilities
      if missing.isEmpty = false then
        (world, .error (.attachRejected self.descriptor.id missing))
      else
        match request.selector with
        | .named expected =>
            if expected ≠ self.target.id then
              (world, .error (.backend ("libvirt domain " ++ expected ++
                " does not match " ++ self.target.id)))
            else self.openSession world
        | .any => self.openSession world

end LibvirtConnector

end LibVmi.Libvirt
