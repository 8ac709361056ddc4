import LibVmi.Attach.Negotiate
import LibVmi.Data.Numerals
import LibVmi.Data.Said

namespace LibVmi

open Data
open Xen (GuestArchitecture AttachRequest XenConnector XenSession)
open VirtualBox (VirtualBoxConnector VirtualBoxSession)
open Libvirt (LibvirtConnector LibvirtSession)

variable {ω : Type}

/-- Saving a core: what looking for the path has found, and the path as text
where it is UTF-8. -/
def Xen.XenSession.dumpCore (self : XenSession ω) (world : ω)
    (absent : Result Unit) (path : Option String) : ω × Result Unit :=
  match absent with
  | .error error => (world, .error error)
  | .ok () =>
      match path with
      | none => (world, .error (.backend "Xen core path is not UTF-8"))
      | some path =>
          let (world, output) := self.transport.execute world
            ["dump-core", self.target.id, path]
          (world, output.map fun _ => ())

namespace Commands

/-! What the providers that drive a command-line tool say to it. A tool takes an
argument for an option where it starts with a dash. -/

inductive LiveProvider where
  | xen (domain : String) (architecture : GuestArchitecture)
  | virtualBox (vm : String) (architecture : GuestArchitecture)
      (registerWrite : Bool)
  | libvirt (domain : String) (architecture : GuestArchitecture)
      (uri : Option String)

inductive LiveSession (ω : Type) where
  | xen (session : XenSession ω)
  | virtualBox (session : VirtualBoxSession ω)
  | libvirt (session : LibvirtSession ω)

/-- What is asked of a session. Saving a range dumps a core at a path of the
provider's own, which is said as saving a snapshot is. -/
inductive LiveCall where
  | executionState
  | pause
  | resume
  | readRegister (vcpu : UInt32) (register : String)
  | writeRegister (vcpu : UInt32) (register : String) (value : UInt64)
  | saveSnapshot (destination : Libvirt.Destination)

namespace LiveProvider

def xenConnector (execute : ω → List String → ω × Result String)
    (domain : String) (architecture : GuestArchitecture) : XenConnector ω :=
  .withTransport domain architecture ⟨execute⟩

def virtualBoxConnector (execute : ω → List String → ω × Result String)
    (vm : String) (architecture : GuestArchitecture) (registerWrite : Bool) :
    VirtualBoxConnector ω :=
  let connector := .withTransport vm architecture ⟨execute⟩
  if registerWrite then connector.withRegisterWrite else connector

def libvirtConnector (execute : ω → List String → ω × Result String)
    (domain : String) (architecture : GuestArchitecture)
    (uri : Option String) : LibvirtConnector ω :=
  let connector := .withTransport domain architecture ⟨execute⟩
  match uri with
  | some uri => connector.withUri uri
  | none => connector

def connect (execute : ω → List String → ω × Result String) (world : ω)
    (request : AttachRequest) : LiveProvider → ω × Result (LiveSession ω)
  | .xen domain architecture =>
      let (world, attached) :=
        (xenConnector execute domain architecture).connect world request
      (world, attached.map .xen)
  | .virtualBox vm architecture registerWrite =>
      let (world, attached) := (virtualBoxConnector execute vm architecture
        registerWrite).connect world request
      (world, attached.map .virtualBox)
  | .libvirt domain architecture uri =>
      let (world, attached) := (libvirtConnector execute domain architecture
        uri).connect world request
      (world, attached.map .libvirt)

/-- The guest that a provider is for. -/
def target : LiveProvider → String
  | .xen domain _ => domain
  | .virtualBox vm _ _ => vm
  | .libvirt domain _ _ => domain

/-- The names that a provider has been given for its guest and its tool. -/
def names : LiveProvider → List String
  | .libvirt domain _ (some uri) => [domain, uri]
  | provider => [provider.target]

/-- What every command starts with, before the word for what is to be done. -/
def lead : LiveProvider → List String
  | .libvirt _ _ (some uri) => ["--connect", uri]
  | _ => []

def verbs : LiveProvider → List String
  | .xen _ _ => ["list", "pause", "unpause", "dump-core"]
  | .virtualBox _ _ _ => ["showvminfo", "controlvm", "debugvm"]
  | .libvirt _ _ _ => ["dumpxml", "domstate", "suspend", "resume", "dump"]

/-- The options that a provider gives after the guest. -/
def options : LiveProvider → List String
  | .xen _ _ => []
  | .virtualBox _ _ _ => ["--machinereadable", "--cpu"]
  | .libvirt _ _ _ => ["--memory-only", "--live", "--format"]

end LiveProvider

/-- The world after a call. What a provider has no access for is not done. -/
def LiveSession.perform : LiveSession ω → ω → LiveCall → ω
  | .xen session, world, .executionState => (session.executionState world).1
  | .xen session, world, .pause => (session.pause world).1
  | .xen session, world, .resume => (session.resume world).1
  | .xen session, world, .readRegister vcpu register =>
      (session.readRegister world vcpu register).1
  | .xen session, world, .writeRegister vcpu register value =>
      (session.writeRegister world vcpu register value).1
  | .xen session, world, .saveSnapshot destination =>
      (session.dumpCore world destination.absent destination.text).1
  | .virtualBox session, world, .executionState =>
      (session.executionState world).1
  | .virtualBox session, world, .pause => (session.pause world).1
  | .virtualBox session, world, .resume => (session.resume world).1
  | .virtualBox session, world, .readRegister vcpu register =>
      (session.readRegister world vcpu register).1
  | .virtualBox session, world, .writeRegister vcpu register value =>
      (session.writeRegister world vcpu register value).1
  | .virtualBox session, world, .saveSnapshot destination =>
      (session.saveSnapshot world ⟨destination.absent, destination.text⟩).1
  | .libvirt session, world, .executionState =>
      (session.executionState world).1
  | .libvirt session, world, .pause => (session.pause world).1
  | .libvirt session, world, .resume => (session.resume world).1
  | .libvirt session, world, .saveSnapshot destination =>
      (session.saveSnapshot world destination).1
  | .libvirt _, world, .readRegister _ _ => world
  | .libvirt _, world, .writeRegister _ _ _ => world

/-- A client attaches, and makes its calls where that succeeds. -/
def LiveProvider.run (provider : LiveProvider)
    (execute : ω → List String → ω × Result String) (world : ω)
    (request : AttachRequest) (calls : List LiveCall) : ω :=
  match provider.connect execute world request with
  | (world, .ok session) => calls.foldl session.perform world
  | (world, .error _) => world

/-- A word that no tool takes for an option, and that holds no control
characters. -/
def Operand (argument : String) : Prop :=
  argument.toList ≠ [] ∧ argument.toList.head? ≠ some '-' ∧
    argument.toList.any isControl = false

instance (argument : String) : Decidable (Operand argument) :=
  inferInstanceAs (Decidable (_ ∧ _ ∧ _))

/-- The paths that a caller asks to save to. -/
def pathsOf (calls : List LiveCall) : List String :=
  calls.filterMap fun
    | .saveSnapshot destination => destination.text
    | _ => none

/-- A command that is about the guest and nothing else: a known word, the guest,
and then only operands, the provider's own options and paths of the caller. -/
def Addressed (provider : LiveProvider) (paths : List String)
    (command : List String) : Prop :=
  ∃ verb rest, verb ∈ provider.verbs ∧
    command = provider.lead ++ verb :: provider.target :: rest ∧
    ∀ argument ∈ rest, Operand argument ∨ argument ∈ provider.options ∨
      argument ∈ paths ∨ ∃ path ∈ paths, argument = "--filename=" ++ path

/-! The arguments. -/

theorem operand_of_bounds {argument : String}
    (nonempty : argument.toList ≠ [])
    (bounds : ∀ char ∈ argument.toList,
      48 ≤ char.toNat ∧ char.toNat ≤ 122) : Operand argument := by
  refine ⟨nonempty, ?_, ?_⟩
  · intro dash
    exact absurd (bounds '-' (List.mem_of_head? dash)).1 (by decide)
  · rw [List.any_eq_false]
    intro char member control
    have within := bounds char member
    simp only [isControl, Bool.or_eq_true, Bool.and_eq_true,
      decide_eq_true_eq] at control
    omega

theorem operand_of_valid {target description : String}
    (valid : Xen.validateTargetName target description = .ok ()) :
    Operand target := by
  have given := rejectIf_eq_ok.mp valid
  simp only [not_or, Bool.not_eq_true] at given
  exact given

theorem operand_register {register : String}
    (valid : VirtualBox.validateRegister register = .ok ()) :
    Operand register := by
  have given := rejectIf_eq_ok.mp valid
  rw [not_or, Bool.not_eq_false, List.all_eq_true] at given
  exact operand_of_bounds given.1 fun char member =>
    alphanum_bounds (given.2 char member)

theorem operand_decimal (value : UInt32) :
    Operand (VirtualBox.tryDecimalU32 value) := by
  have denotes : Denotes 10 (Nat.toDigits 10 value.toNat) value :=
    denotes_toDigits (by decide) (by decide) value
  unfold VirtualBox.tryDecimalU32
  refine operand_of_bounds ?_ ?_
  · rw [String.toList_ofList]
    exact denotes.nonempty
  · rw [String.toList_ofList]
    exact fun char member => digitOf_bounds (denotes.digits_only char member)

theorem operand_assignment {register : String}
    (valid : VirtualBox.validateRegister register = .ok ()) (value : UInt64) :
    Operand (VirtualBox.tryRegisterAssignment register value) := by
  have given := rejectIf_eq_ok.mp valid
  rw [not_or, Bool.not_eq_false, List.all_eq_true] at given
  have denotes : Denotes 16 ((Nat.toDigits 16 value.toNat).leftpad 16 '0')
      value :=
    (denotes_toDigits (by decide) (by decide) value).leftpad (by decide) 16
  unfold VirtualBox.tryRegisterAssignment
  refine operand_of_bounds ?_ ?_
  · rw [String.toList_ofList]
    simp [given.1]
  · rw [String.toList_ofList]
    intro char member
    obtain (named | equals) | digit := by
      simpa only [List.mem_append] using member
    · exact alphanum_bounds (given.2 char named)
    · have all : "=0x".toList.all fun char =>
          48 ≤ char.toNat && char.toNat ≤ 122 := by
        decide
      simpa using List.all_eq_true.mp all char equals
    · exact digitOf_bounds (denotes.digits_only char digit)

/-! What a session says. -/

section Speaks

variable {execute : ω → List String → ω × Result String}
  {calls : List LiveCall} {before : Noted ω (List String)}

theorem mem_pathsOf {destination : Libvirt.Destination} {path : String}
    (made : .saveSnapshot destination ∈ calls)
    (text : destination.text = some path) : path ∈ pathsOf calls :=
  List.mem_filterMap.mpr ⟨_, made, text⟩

/-- The session that a provider attaches when what it says is noted. -/
def Attached (execute : ω → List String → ω × Result String) :
    LiveProvider → LiveSession (Noted ω (List String)) → Prop
  | .xen domain _, .xen session =>
      session.transport = ⟨noted execute⟩ ∧ session.target.id = domain ∧
        session.cpu = none
  | .virtualBox vm _ _, .virtualBox session =>
      session.transport = ⟨noted execute⟩ ∧ session.target.id = vm
  | .libvirt domain _ uri, .libvirt session =>
      session.transport = ⟨noted execute⟩ ∧ session.target.id = domain ∧
        session.uri = uri
  | _, _ => False

theorem addressed_said {provider : LiveProvider} {paths : List String} {verb : String}
    (known : verb ∈ provider.verbs) {rest : List String}
    (plain : ∀ argument ∈ rest, Operand argument ∨
      argument ∈ provider.options ∨ argument ∈ paths ∨
        ∃ path ∈ paths, argument = "--filename=" ++ path) :
    SaysOnly (Addressed provider paths) before (noted execute before
      (provider.lead ++ verb :: provider.target :: rest)).1 :=
  .noted ⟨verb, rest, known, rfl, plain⟩ before

theorem xen_speaks {domain : String} {architecture : GuestArchitecture}
    {session : XenSession (Noted ω (List String))}
    (attached : Attached execute (.xen domain architecture) (.xen session))
    {call : LiveCall} (made : call ∈ calls) :
    SaysOnly (Addressed (.xen domain architecture) (pathsOf calls)) before
      ((LiveSession.xen session).perform before call) := by
  obtain ⟨descriptor, target, transport, memory, cpu, events⟩ := session
  obtain ⟨rfl, rfl, rfl⟩ := attached
  have verbs : (LiveProvider.xen target.id architecture).verbs =
    ["list", "pause", "unpause", "dump-core"] := rfl
  cases call with
  | executionState => exact addressed_said (by simp [verbs]) nofun
  | pause => exact addressed_said (by simp [verbs]) nofun
  | resume => exact addressed_said (by simp [verbs]) nofun
  | readRegister vcpu register =>
      dsimp only [LiveSession.perform, XenSession.readRegister]
      cases Xen.validateRegister register <;> exact .refl _ before
  | writeRegister vcpu register value =>
      dsimp only [LiveSession.perform, XenSession.writeRegister]
      cases Xen.validateRegister register <;> exact .refl _ before
  | saveSnapshot destination =>
      obtain ⟨absent, text, isFile⟩ := destination
      unfold LiveSession.perform XenSession.dumpCore
      cases absent with
      | error error => exact .refl _ before
      | ok found =>
          cases text with
          | none => exact .refl _ before
          | some path =>
              refine addressed_said (by simp [verbs]) ?_
              intro argument member
              rw [List.mem_singleton.mp member]
              exact .inr (.inr (.inl (mem_pathsOf made rfl)))

section VirtualBox

variable {vm : String} {architecture : GuestArchitecture}
  {registerWrite : Bool} {session : VirtualBoxSession (Noted ω (List String))}

theorem virtualBox_reads
    (attached : Attached execute (.virtualBox vm architecture registerWrite)
      (.virtualBox session)) (vcpu : UInt32) (register : String) :
    SaysOnly (Addressed (.virtualBox vm architecture registerWrite)
        (pathsOf calls)) before
      (session.readRegister before vcpu register).1 := by
  obtain ⟨descriptor, target, transport, memory⟩ := session
  obtain ⟨rfl, rfl⟩ := attached
  unfold VirtualBoxSession.readRegister
  cases valid : VirtualBox.validateRegister register with
  | error error => exact .refl _ before
  | ok _ =>
      refine addressed_said (by simp [LiveProvider.verbs]) ?_
      simp only [List.forall_mem_cons, List.not_mem_nil, false_implies,
        implies_true, and_true]
      exact ⟨.inl (by decide), .inr (.inl (by simp [LiveProvider.options])),
        .inl (operand_decimal vcpu), .inl (operand_register valid)⟩

theorem virtualBox_writes
    (attached : Attached execute (.virtualBox vm architecture registerWrite)
      (.virtualBox session)) (vcpu : UInt32) (register : String)
    (value : UInt64) :
    SaysOnly (Addressed (.virtualBox vm architecture registerWrite)
        (pathsOf calls)) before
      (session.writeRegister before vcpu register value).1 := by
  have read : ∀ next, SaysOnly (Addressed (.virtualBox vm architecture
      registerWrite) (pathsOf calls)) next
      (session.readRegister next vcpu register).1 :=
    fun _ => virtualBox_reads attached vcpu register
  obtain ⟨descriptor, target, transport, memory⟩ := session
  obtain ⟨rfl, rfl⟩ := attached
  unfold VirtualBoxSession.writeRegister
  split
  · exact .refl _ before
  · cases valid : VirtualBox.validateRegister register with
    | error error => exact .refl _ before
    | ok _ =>
        have said : SaysOnly (Addressed (.virtualBox target.id architecture
            registerWrite) (pathsOf calls)) before
            (noted execute before ["debugvm", target.id, "setregisters",
              "--cpu", VirtualBox.tryDecimalU32 vcpu,
              VirtualBox.tryRegisterAssignment register value]).1 := by
          refine addressed_said (by simp [LiveProvider.verbs]) ?_
          simp only [List.forall_mem_cons, List.not_mem_nil, false_implies,
            implies_true, and_true]
          exact ⟨.inl (by decide),
            .inr (.inl (by simp [LiveProvider.options])),
            .inl (operand_decimal vcpu), .inl (operand_assignment valid value)⟩
        dsimp only
        generalize noted execute before ["debugvm", target.id, "setregisters",
          "--cpu", VirtualBox.tryDecimalU32 vcpu,
          VirtualBox.tryRegisterAssignment register value] = run at *
        obtain ⟨after, output⟩ := run
        cases output with
        | error error => exact said
        | ok text => exact said.trans (read after)

theorem virtualBox_speaks
    (attached : Attached execute (.virtualBox vm architecture registerWrite)
      (.virtualBox session)) {call : LiveCall} (made : call ∈ calls) :
    SaysOnly (Addressed (.virtualBox vm architecture registerWrite)
        (pathsOf calls)) before
      ((LiveSession.virtualBox session).perform before call) := by
  cases call with
  | readRegister vcpu register =>
      exact virtualBox_reads attached vcpu register
  | writeRegister vcpu register value =>
      exact virtualBox_writes attached vcpu register value
  | executionState =>
      obtain ⟨descriptor, target, transport, memory⟩ := session
      obtain ⟨rfl, rfl⟩ := attached
      refine addressed_said (by simp [LiveProvider.verbs]) ?_
      simp [LiveProvider.options]
  | pause =>
      obtain ⟨descriptor, target, transport, memory⟩ := session
      obtain ⟨rfl, rfl⟩ := attached
      refine addressed_said (by simp [LiveProvider.verbs]) ?_
      simpa using .inl (by decide : Operand "pause")
  | resume =>
      obtain ⟨descriptor, target, transport, memory⟩ := session
      obtain ⟨rfl, rfl⟩ := attached
      refine addressed_said (by simp [LiveProvider.verbs]) ?_
      simpa using .inl (by decide : Operand "resume")
  | saveSnapshot destination =>
      obtain ⟨descriptor, target, transport, memory⟩ := session
      obtain ⟨rfl, rfl⟩ := attached
      obtain ⟨absent, text, isFile⟩ := destination
      unfold LiveSession.perform VirtualBoxSession.saveSnapshot
      cases absent with
      | error error => exact .refl _ before
      | ok found =>
          cases text with
          | none => exact .refl _ before
          | some path =>
              refine addressed_said (by simp [LiveProvider.verbs]) ?_
              simp only [List.forall_mem_cons, List.not_mem_nil,
                false_implies, implies_true, and_true]
              exact ⟨.inl (by decide), .inr (.inr (.inr
                ⟨path, mem_pathsOf made rfl, rfl⟩))⟩

end VirtualBox

section Libvirt

variable {domain : String} {architecture : GuestArchitecture}
  {uri : Option String} {session : LibvirtSession (Noted ω (List String))}

theorem libvirt_said
    (attached : Attached execute (.libvirt domain architecture uri)
      (.libvirt session)) {verb : String} {rest : List String}
    (known : verb ∈ ["dumpxml", "domstate", "suspend", "resume", "dump"])
    (plain : ∀ argument ∈ rest, Operand argument ∨
      argument ∈ ["--memory-only", "--live", "--format"] ∨
        argument ∈ pathsOf calls) :
    SaysOnly (Addressed (.libvirt domain architecture uri) (pathsOf calls))
      before (session.execute before (verb :: session.target.id :: rest)).1 := by
  obtain ⟨descriptor, target, transport, uri⟩ := session
  obtain ⟨rfl, rfl, rfl⟩ := attached
  have addressed : SaysOnly (Addressed (.libvirt target.id architecture uri)
      (pathsOf calls)) before (noted execute before
        ((LiveProvider.libvirt target.id architecture uri).lead ++
          verb :: target.id :: rest)).1 :=
    addressed_said known fun argument member =>
      (plain argument member).imp_right (.imp_right .inl)
  cases uri with
  | none => exact addressed
  | some uri => exact addressed

theorem libvirt_speaks
    (attached : Attached execute (.libvirt domain architecture uri)
      (.libvirt session)) {call : LiveCall} (made : call ∈ calls) :
    SaysOnly (Addressed (.libvirt domain architecture uri) (pathsOf calls))
      before ((LiveSession.libvirt session).perform before call) := by
  cases call with
  | executionState => exact libvirt_said attached (by simp) nofun
  | pause => exact libvirt_said attached (by simp) nofun
  | resume => exact libvirt_said attached (by simp) nofun
  | readRegister vcpu register => exact .refl _ before
  | writeRegister vcpu register value => exact .refl _ before
  | saveSnapshot destination =>
      obtain ⟨absent, text, isFile⟩ := destination
      unfold LiveSession.perform LibvirtSession.saveSnapshot
      cases absent with
      | error error => exact .refl _ before
      | ok found =>
          cases text with
          | none => exact .refl _ before
          | some path =>
              refine libvirt_said attached (by simp) ?_
              simp only [List.forall_mem_cons, List.not_mem_nil,
                false_implies, implies_true, and_true]
              exact ⟨.inr (.inr (mem_pathsOf made rfl)), .inr (.inl (by simp)),
                .inr (.inl (by simp)), .inr (.inl (by simp)),
                .inl (by decide)⟩

end Libvirt

theorem perform_speaks {provider : LiveProvider}
    {session : LiveSession (Noted ω (List String))}
    (attached : Attached execute provider session) {call : LiveCall}
    (made : call ∈ calls) :
    SaysOnly (Addressed provider (pathsOf calls)) before
      (session.perform before call) := by
  cases provider <;> cases session <;> try contradiction
  · exact xen_speaks attached made
  · exact virtualBox_speaks attached made
  · exact libvirt_speaks attached made

/-! What attaching says. A guest whose name a tool could take for an option is
refused before anything is said. -/

/-- What may come of attaching. -/
inductive Attaches (execute : ω → List String → ω × Result String)
    (provider : LiveProvider) (paths : List String)
    (before : Noted ω (List String)) :
    Noted ω (List String) × Result (LiveSession (Noted ω (List String))) → Prop
  | refused (error : VmiError) :
      Attaches execute provider paths before (before, .error error)
  | asked {after : Noted ω (List String)}
      {result : Result (LiveSession (Noted ω (List String)))}
      (operands : ∀ name ∈ provider.names, Operand name)
      (said : SaysOnly (Addressed provider paths) before after)
      (attached : ∀ session, result = .ok session →
        Attached execute provider session) :
      Attaches execute provider paths before (after, result)

theorem attaches_of_state {provider : LiveProvider} {paths : List String}
    {state session : Type} (run : Noted ω (List String) × Result state)
    {opened : session} {wrap : session → LiveSession (Noted ω (List String))}
    (operands : ∀ name ∈ provider.names, Operand name)
    (said : SaysOnly (Addressed provider paths) before run.1)
    (attached : Attached execute provider (wrap opened)) :
    Attaches execute provider paths before
      (run.1, (run.2.map fun _ => opened).map wrap) := by
  refine .asked operands said ?_
  obtain ⟨after, result⟩ := run
  cases result with
  | error error =>
      intro _ none
      cases none
  | ok state =>
      intro _ same
      cases same
      exact attached

theorem xen_attaches {connector : XenConnector (Noted ω (List String))}
    {domain : String} (architecture : GuestArchitecture)
    (request : AttachRequest)
    (transport : connector.transport = ⟨noted execute⟩)
    (target : connector.target.id = domain) (cpu : connector.cpu = none) :
    Attaches execute (.xen domain architecture) (pathsOf calls) before
      ((connector.connect before request).1,
        (connector.connect before request).2.map .xen) := by
  rw [Attach.xen_connect]
  obtain refused | ⟨valid, opened⟩ :=
    (Attach.xenTerms connector).connect_cases before request
  · rw [refused]
    exact .refused _
  · rw [opened]
    subst target
    have attached : Attached execute (.xen connector.target.id architecture)
        (.xen ⟨connector.descriptor, connector.target, connector.transport,
          connector.memory, connector.cpu, connector.events⟩) :=
      ⟨transport, rfl, cpu⟩
    refine attaches_of_state (XenSession.executionState ⟨_, _, _, _, _, _⟩
      before) ?_ ?_ attached
    · exact List.forall_mem_singleton.mpr (operand_of_valid valid)
    · exact @xen_speaks _ _ (.executionState :: calls) _ _ _ _ attached _
        List.mem_cons_self

theorem virtualBox_attaches
    {connector : VirtualBoxConnector (Noted ω (List String))} {vm : String}
    (architecture : GuestArchitecture) (registerWrite : Bool)
    (request : AttachRequest)
    (transport : connector.transport = ⟨noted execute⟩)
    (target : connector.target.id = vm) :
    Attaches execute (.virtualBox vm architecture registerWrite)
      (pathsOf calls) before
      ((connector.connect before request).1,
        (connector.connect before request).2.map .virtualBox) := by
  rw [Attach.virtualBox_connect]
  obtain refused | ⟨valid, opened⟩ :=
    (Attach.virtualBoxTerms connector).connect_cases before request
  · rw [refused]
    exact .refused _
  · rw [opened]
    subst target
    have attached : Attached execute
        (.virtualBox connector.target.id architecture registerWrite)
        (.virtualBox ⟨connector.descriptor, connector.target,
          connector.transport, connector.memory⟩) := ⟨transport, rfl⟩
    refine attaches_of_state (VirtualBoxSession.executionState ⟨_, _, _, _⟩
      before) ?_ ?_ attached
    · exact List.forall_mem_singleton.mpr (operand_of_valid valid)
    · exact @virtualBox_speaks _ _ (.executionState :: calls) _ _ _ _ _ attached
        _ List.mem_cons_self

theorem operands_of_validate
    {connector : LibvirtConnector (Noted ω (List String))}
    (valid : connector.validate = .ok ()) (architecture : GuestArchitecture) :
    ∀ name ∈ (LiveProvider.libvirt connector.target.id architecture
      connector.uri).names, Operand name := by
  have given : ∀ {value description},
      Libvirt.validateArgument value description = .ok () → Operand value := by
    intro value description valid
    have plain := rejectIf_eq_ok.mp valid
    simp only [not_or, Bool.not_eq_true] at plain
    exact plain
  unfold LibvirtConnector.validate at valid
  obtain ⟨_, domain, rest⟩ := bind_eq_ok.mp valid
  cases uri : connector.uri with
  | none => exact List.forall_mem_singleton.mpr (given domain)
  | some uri =>
      rw [uri] at rest
      exact List.forall_mem_cons.mpr ⟨given domain,
        List.forall_mem_singleton.mpr (given rest)⟩

theorem libvirt_attaches
    {connector : LibvirtConnector (Noted ω (List String))} {domain : String}
    {uri : Option String} (architecture : GuestArchitecture)
    (request : AttachRequest)
    (transport : connector.transport = ⟨noted execute⟩)
    (target : connector.target.id = domain) (given : connector.uri = uri) :
    Attaches execute (.libvirt domain architecture uri) (pathsOf calls) before
      ((connector.connect before request).1,
        (connector.connect before request).2.map .libvirt) := by
  rw [Attach.libvirt_connect]
  obtain refused | ⟨valid, opened⟩ :=
    (Attach.libvirtTerms connector).connect_cases before request
  · rw [refused]
    exact .refused _
  · rw [opened]
    subst target given
    have operands := operands_of_validate valid architecture
    have attached : Attached execute
        (.libvirt connector.target.id architecture connector.uri)
        (.libvirt ⟨connector.descriptor, connector.target,
          connector.transport, connector.uri⟩) := ⟨transport, rfl, rfl⟩
    have asked := @libvirt_said _ _ calls before _ _ _ _ attached "dumpxml" []
      (by simp) nofun
    dsimp only [Attach.libvirtTerms, Attach.liveTerms,
      LibvirtConnector.openSession]
    generalize LibvirtSession.execute _ before ["dumpxml", _] = run at *
    obtain ⟨after, xml⟩ := run
    cases xml with
    | error error =>
        refine .asked operands asked ?_
        intro _ none
        cases none
    | ok xml =>
        dsimp only
        split
        · refine .asked operands asked ?_
          intro _ none
          cases none
        · refine attaches_of_state (LibvirtSession.executionState
            ⟨_, _, _, _⟩ after) operands (asked.trans ?_) attached
          exact @libvirt_speaks _ _ (.executionState :: calls) _ _ _ _ _
            attached _ List.mem_cons_self

theorem connect_attaches (provider : LiveProvider) (request : AttachRequest) :
    Attaches execute provider (pathsOf calls) before
      (provider.connect (noted execute) before request) := by
  unfold LiveProvider.connect
  cases provider with
  | xen domain architecture =>
      exact xen_attaches architecture request rfl rfl rfl
  | virtualBox vm architecture registerWrite =>
      cases registerWrite with
      | false => exact virtualBox_attaches architecture false request rfl rfl
      | true => exact virtualBox_attaches architecture true request rfl rfl
  | libvirt domain architecture uri =>
      cases uri with
      | none => exact libvirt_attaches architecture request rfl rfl rfl
      | some uri => exact libvirt_attaches architecture request rfl rfl rfl

end Speaks

def listingTool (world : Unit) (_ : List String) : Unit × Result String :=
  (world, .ok "Name ID Mem VCPUs State Time\nguest 1 2048 2 r----- 10.0\n")

def listedGuest : LiveProvider := .xen "guest" .amd64

end Commands

end LibVmi
