import LibVmi.Libvirt.Session
import LibVmi.VirtualBox.Session

namespace LibVmi.Attach

open Xen (ProviderDescriptor TargetDescriptor AttachRequest XenConnector
  XenSession)
open VirtualBox (VirtualBoxConnector VirtualBoxSession)
open Libvirt (LibvirtConnector LibvirtSession)

variable {ω σ : Type}

/-! How a request to attach is settled before anything reaches the host. The
connectors differ in what they check first, in the names they go by and in what
they do once they accept. -/

structure Terms (ω σ : Type) where
  valid : Result Unit
  descriptor : ProviderDescriptor
  isTarget : String → Bool
  notFound : String → VmiError
  openSession : ω → ω × Result σ

namespace Terms

variable (self : Terms ω σ)

def connect (world : ω) (request : AttachRequest) : ω × Result σ :=
  match self.valid with
  | .error error => (world, .error error)
  | .ok () =>
      let missing := request.requiredCapabilities.differenceOf
        self.descriptor.capabilities
      if missing.isEmpty = false then
        (world, .error (.attachRejected self.descriptor.id missing))
      else
        match request.selector with
        | .named expected =>
            if self.isTarget expected = false then
              (world, .error (self.notFound expected))
            else self.openSession world
        | .any => self.openSession world

/-- The request is for this target and for no more than is advertised. -/
structure Accepts (request : AttachRequest) : Prop where
  checked : self.valid = .ok ()
  enough : (request.requiredCapabilities.differenceOf
    self.descriptor.capabilities).isEmpty = true
  known : ∀ name, request.selector = .named name → self.isTarget name = true

/-- Why a request that is not accepted is refused. -/
def refusal (request : AttachRequest) : VmiError :=
  match self.valid with
  | .error error => error
  | .ok () =>
      let missing := request.requiredCapabilities.differenceOf
        self.descriptor.capabilities
      if missing.isEmpty = false then
        .attachRejected self.descriptor.id missing
      else
        match request.selector with
        | .named expected => self.notFound expected
        | .any => .attachRejected self.descriptor.id missing

variable {self} {world : ω} {request : AttachRequest}

theorem connect_accepted (accepts : self.Accepts request) :
    self.connect world request = self.openSession world := by
  obtain ⟨checked, enough, known⟩ := accepts
  unfold connect
  rw [checked]
  dsimp only
  rw [if_neg (by simp [enough])]
  cases selected : request.selector with
  | any => rfl
  | named name => exact if_neg (by simp [known name selected])

/-- A request that is not accepted changes nothing. -/
theorem connect_refused (refuses : ¬ self.Accepts request) :
    self.connect world request = (world, .error (self.refusal request)) := by
  unfold connect refusal
  cases checked : self.valid with
  | error error => rfl
  | ok _ =>
      dsimp only
      split
      · rfl
      · rename_i enough
        rw [Bool.not_eq_false] at enough
        cases selected : request.selector with
        | any =>
            refine absurd ⟨checked, enough, ?_⟩ refuses
            rw [selected]
            nofun
        | named name =>
            refine if_pos ?_
            by_contra known
            refine refuses ⟨checked, enough, ?_⟩
            rw [selected]
            rintro _ ⟨⟩
            exact Bool.not_eq_false _ ▸ known

/-- Either nothing is done, or the session is opened. -/
theorem connect_cases (self : Terms ω σ) (world : ω) (request : AttachRequest) :
    self.connect world request = (world, .error (self.refusal request)) ∨
      self.valid = .ok () ∧
        self.connect world request = self.openSession world := by
  by_cases accepts : self.Accepts request
  · have opened := @connect_accepted _ _ self world request accepts
    obtain ⟨checked, _, _⟩ := accepts
    exact .inr ⟨checked, opened⟩
  · exact .inl (connect_refused accepts)

end Terms

/-! The connectors that drive a command-line tool differ in how they check the
name of the guest. -/

def liveTerms (valid : Result Unit) (descriptor : ProviderDescriptor)
    (target : TargetDescriptor) (kind : String) (openSession : ω → ω × Result σ) :
    Terms ω σ where
  valid := valid
  descriptor := descriptor
  isTarget := fun expected => decide (expected = target.id)
  notFound := fun expected => .backend (kind ++ " " ++ expected ++
    " does not match " ++ target.id)
  openSession := openSession

def xenTerms (self : XenConnector ω) : Terms ω (XenSession ω) :=
  liveTerms (Xen.validateTargetName self.target.id "Xen domain")
    self.descriptor self.target "Xen domain" self.openSession

def virtualBoxTerms (self : VirtualBoxConnector ω) :
    Terms ω (VirtualBoxSession ω) :=
  liveTerms (VirtualBox.validateTargetName self.target.id "VirtualBox VM")
    self.descriptor self.target "VirtualBox VM" self.openSession

def libvirtTerms (self : LibvirtConnector ω) : Terms ω (LibvirtSession ω) :=
  liveTerms self.validate self.descriptor self.target "libvirt domain"
    self.openSession

theorem xen_connect (self : XenConnector ω) (world : ω)
    (request : AttachRequest) :
    self.connect world request = (xenTerms self).connect world request := by
  unfold XenConnector.connect Terms.connect xenTerms liveTerms
  cases Xen.validateTargetName self.target.id "Xen domain" with
  | error error => rfl
  | ok _ =>
      cases request.selector with
      | any => rfl
      | named name => by_cases same : name = self.target.id <;> simp [same]

theorem virtualBox_connect (self : VirtualBoxConnector ω) (world : ω)
    (request : AttachRequest) :
    self.connect world request =
      (virtualBoxTerms self).connect world request := by
  unfold VirtualBoxConnector.connect Terms.connect virtualBoxTerms liveTerms
  cases VirtualBox.validateTargetName self.target.id "VirtualBox VM" with
  | error error => rfl
  | ok _ =>
      cases request.selector with
      | any => rfl
      | named name => by_cases same : name = self.target.id <;> simp [same]

theorem libvirt_connect (self : LibvirtConnector ω) (world : ω)
    (request : AttachRequest) :
    self.connect world request = (libvirtTerms self).connect world request := by
  unfold LibvirtConnector.connect Terms.connect libvirtTerms liveTerms
  cases self.validate with
  | error error => rfl
  | ok _ =>
      cases request.selector with
      | any => rfl
      | named name => by_cases same : name = self.target.id <;> simp [same]

end LibVmi.Attach
