import LibVmi.Xen.Connector

namespace LibVmi.VirtualBox

open Data
open Xen (GuestArchitecture ProviderDescriptor TargetDescriptor AttachRequest
  ExecutionState)

variable {ω : Type}

/-! The live provider for VirtualBox, which talks to a machine through the
commands of `VBoxManage`. The texts that it copies find the memory they need. -/

structure VBoxManageTransport (ω : Type) where
  execute : ω → List String → ω × Result String

structure VirtualBoxMemoryTransport (ω : Type) where
  readInto : ω → Gpa → (length : Nat) →
    ω × Result { buffer : List UInt8 // buffer.length = length }

structure VirtualBoxConnector (ω : Type) where
  descriptor : ProviderDescriptor
  target : TargetDescriptor
  transport : VBoxManageTransport ω
  memory : Option (VirtualBoxMemoryTransport ω)

structure VirtualBoxSession (ω : Type) where
  descriptor : ProviderDescriptor
  target : TargetDescriptor
  transport : VBoxManageTransport ω
  memory : Option (VirtualBoxMemoryTransport ω)

/-! What is said to the tool, and what it says. -/

def validateTargetName (target description : String) : Result Unit :=
  Xen.validateTargetName target description

def validateRegister (register : String) : Result Unit :=
  rejectIf (register.toList = [] ∨
      register.toList.all Char.isAlphanum = false)
    (.backend "invalid VirtualBox register name")

def tryDecimalU32 (value : UInt32) : String :=
  String.ofList (Nat.toDigits 10 value.toNat)

def tryRegisterAssignment (register : String) (value : UInt64) : String :=
  String.ofList (register.toList ++ "=0x".toList ++
    (Nat.toDigits 16 value.toNat).leftpad 16 '0')

def stateOf : String → ExecutionState
  | "running" => .running
  | "paused" => .paused
  | "poweroff" | "saved" | "aborted" => .shutdown
  | _ => .unknown

def parseState (output : String) : Result ExecutionState := do
  let value ← okOr
    ((lines output.toList).findSome? (stripPrefix "VMState=".toList))
    (.backend "VBoxManage output lacks VMState")
  return stateOf (String.ofList (trimMatches '"' value))

def stripHexPrefix : List Char → List Char
  | '0' :: 'x' :: digits => digits
  | '0' :: 'X' :: digits => digits
  | digits => digits

/-- The value that a line gives the register, where it names it. -/
def registerLine (register line : List Char) : Option (List Char) := do
  let (name, value) ← splitOnce '=' line
  if (trim name).map Char.toLower == register.map Char.toLower then
    some (trimMatches '"' (trim value))
  else none

def parseRegister (output register : String) : Result UInt64 :=
  match (lines output.toList).findSome? (registerLine register.toList) with
  | some value =>
      (fromStrRadix 16 (stripHexPrefix value)).mapError fun error =>
        .backend ("invalid register value: " ++ error)
  | none =>
      .error (.backend ("VBoxManage output lacks register " ++ register))

/-! The session. -/

/-- A path that something is to be saved to: what looking for it has found,
and the path as text where it is UTF-8. -/
structure Destination where
  absent : Result Unit
  text : Option String

namespace VirtualBoxSession

variable (self : VirtualBoxSession ω) (world : ω)

def executionState : ω × Result ExecutionState :=
  let (world, output) := self.transport.execute world
    ["showvminfo", self.target.id, "--machinereadable"]
  (world, output.bind parseState)

def pause : ω × Result Unit :=
  let (world, output) := self.transport.execute world
    ["controlvm", self.target.id, "pause"]
  (world, output.map fun _ => ())

def resume : ω × Result Unit :=
  let (world, output) := self.transport.execute world
    ["controlvm", self.target.id, "resume"]
  (world, output.map fun _ => ())

def readRegister (vcpu : UInt32) (register : String) : ω × Result UInt64 :=
  match validateRegister register with
  | .error error => (world, .error error)
  | .ok () =>
      let (world, output) := self.transport.execute world
        ["debugvm", self.target.id, "getregisters", "--cpu",
          tryDecimalU32 vcpu, register]
      (world, output.bind (parseRegister · register))

/-- What is read back after a write has to be what was written. -/
def verify (value actual : UInt64) : Result Unit :=
  rejectIf (actual ≠ value)
    (.backend ("VirtualBox register write verification failed: expected " ++
      hex value.toNat ++ ", got " ++ hex actual.toNat))

def writeRegister (vcpu : UInt32) (register : String) (value : UInt64) :
    ω × Result Unit :=
  if self.descriptor.capabilities.containsCapability .registerWrite = false then
    (world, .error (.capabilityMissing self.descriptor.id .registerWrite))
  else
    match validateRegister register with
    | .error error => (world, .error error)
    | .ok () =>
        let (world, output) := self.transport.execute world
          ["debugvm", self.target.id, "setregisters", "--cpu",
            tryDecimalU32 vcpu, tryRegisterAssignment register value]
        match output with
        | .error error => (world, .error error)
        | .ok _ =>
            let (world, actual) := self.readRegister world vcpu register
            (world, actual.bind (verify value))

def saveSnapshot (destination : Destination) : ω × Result Unit :=
  match destination.absent with
  | .error error => (world, .error error)
  | .ok () =>
      match destination.text with
      | none =>
          (world, .error (.backend "VirtualBox core path is not UTF-8"))
      | some path =>
          let (world, output) := self.transport.execute world
            ["debugvm", self.target.id, "dumpvmcore", "--filename=" ++ path]
          (world, output.map fun _ => ())

end VirtualBoxSession

/-! The connector. -/

namespace VirtualBoxConnector

def withTransport (vm : String) (architecture : GuestArchitecture)
    (transport : VBoxManageTransport ω) : VirtualBoxConnector ω where
  descriptor := {
    id := "virtualbox"
    displayName := "VirtualBox Live"
    version := none
    maturity := .preview
    capabilities :=
      .fromCaps [.memoryRead, .registerRead, .control, .acquisition] }
  target := {
    id := vm
    displayName := some vm
    architecture := architecture
    consistency := .liveBestEffort }
  transport := transport
  memory := none

def withMemoryTransport (self : VirtualBoxConnector ω)
    (memory : VirtualBoxMemoryTransport ω) : VirtualBoxConnector ω :=
  { self with memory := some memory }

def withRegisterWrite (self : VirtualBoxConnector ω) : VirtualBoxConnector ω :=
  { self with
    descriptor := { self.descriptor with
      capabilities :=
        self.descriptor.capabilities.insertCapability .registerWrite } }

/-- What is left of `connect` once the request is accepted. -/
def openSession (self : VirtualBoxConnector ω) (world : ω) :
    ω × Result (VirtualBoxSession ω) :=
  let session : VirtualBoxSession ω :=
    ⟨self.descriptor, self.target, self.transport, self.memory⟩
  let (world, state) := session.executionState world
  (world, state.map fun _ => session)

def connect (self : VirtualBoxConnector ω) (world : ω)
    (request : AttachRequest) : ω × Result (VirtualBoxSession ω) :=
  match validateTargetName self.target.id "VirtualBox VM" with
  | .error error => (world, .error error)
  | .ok () =>
      let missing := request.requiredCapabilities.differenceOf
        self.descriptor.capabilities
      if missing.isEmpty = false then
        (world, .error (.attachRejected self.descriptor.id missing))
      else
        match request.selector with
        | .named expected =>
            if expected ≠ self.target.id then
              (world, .error (.backend ("VirtualBox VM " ++ expected ++
                " does not match " ++ self.target.id)))
            else self.openSession world
        | .any => self.openSession world

end VirtualBoxConnector

end LibVmi.VirtualBox
