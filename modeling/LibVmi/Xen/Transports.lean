import LibVmi.Data.Json
import LibVmi.Data.Text
import LibVmi.Driver
import Mathlib.Data.List.DropRight

namespace LibVmi.Xen

open Data

/-! What a Xen session is built from. Each operation of a transport takes the
world as it finds it and hands back the world it leaves. -/

variable {ω : Type}

structure XlTransport (ω : Type) where
  execute : ω → List String → ω × Result String

structure XenMemoryTransport (ω : Type) where
  readInto : ω → Gpa → (length : Nat) →
    ω × Result { buffer : List UInt8 // buffer.length = length }
  write : ω → Gpa → List UInt8 → ω × Result Unit

structure XenCpuTransport (ω : Type) where
  readRegister : ω → UInt32 → String → ω × Result UInt64
  supportsWrite : Bool
  writeRegister : ω → UInt32 → String → UInt64 → ω × Result Unit

structure XenEventTransport (ω : Type) where
  nextEvent : ω → (timeout : Nat) → ω × Result (Option VmiEvent)

structure ExitStatus where
  success : Bool
  text : String
  deriving DecidableEq, Repr

/-- How the host runs a command, and how it shows bytes that need not be
UTF-8. -/
structure Host (ω : Type) where
  runBoundedCommand : ω → (executable : String) → (arguments : List String) →
    (timeout : Nat) → (commandName : String) →
    ω × Result (ExitStatus × List UInt8 × List UInt8)
  lossyTrimmed : List UInt8 → String
  utf8Error : List UInt8 → String

/-- The seconds of `DEFAULT_COMMAND_TIMEOUT`. -/
def defaultCommandTimeout : Nat := 30

namespace Host

/-- The text a command prints, where it succeeds. -/
def runForText (host : Host ω) (world : ω) (executable : String)
    (arguments : List String) (timeout : Nat) (commandName : String) :
    ω × Result String :=
  let (world, outcome) :=
    host.runBoundedCommand world executable arguments timeout commandName
  (world, do
    let (status, stdout, stderr) ← outcome
    rejectIf (status.success = false) (.backend (commandName ++
      " failed with " ++ status.text ++ ": " ++ host.lossyTrimmed stderr))
    okOr (String.fromUTF8? ⟨stdout.toArray⟩) (.backend (commandName ++
      " output is not UTF-8: " ++ host.utf8Error stdout)))

end Host

structure ProcessTransport where
  executable : String
  timeout : Nat

namespace ProcessTransport

def default : ProcessTransport := ⟨"xl", defaultCommandTimeout⟩

def xlTransport (self : ProcessTransport) (host : Host ω) : XlTransport ω where
  execute := fun world arguments =>
    host.runForText world self.executable arguments self.timeout "xl"

end ProcessTransport

def validateRegister (register : String) : Result Unit :=
  rejectIf (register.toList = [] ∨
      register.toList.all Char.isAlphanum = false)
    (.backend "invalid Xen register name")

def stripHexPrefix : List Char → List Char
  | '0' :: 'x' :: digits => digits
  | '0' :: 'X' :: digits => digits
  | digits => digits

/-- `trim_end_matches(':')` and `eq_ignore_ascii_case`. -/
def namesRegister (name register : List Char) : Bool :=
  (name.rdropWhile (· == ':')).map Char.toLower == register.map Char.toLower

/-- The field after the one that names the register, in one line. -/
def registerField (register : List Char) : (previous : Option (List Char)) →
    List (List Char) → Option (List Char)
  | _, [] => none
  | previous, field :: fields =>
      if previous.any fun name => namesRegister name register then
        some field
      else
        registerField register (some field) fields

def parseXenctxRegister (output register : String) : Result UInt64 :=
  match (lines output.toList).findSome? fun line =>
      registerField register.toList none (splitWhitespace line) with
  | some field =>
      (fromStrRadix 16 (stripHexPrefix field)).mapError fun error =>
        .backend ("invalid xenctx register value: " ++ error)
  | none => .error (.backend ("xenctx output lacks register " ++ register))

structure XenCtxTransport where
  executable : String
  domainId : UInt32
  timeout : Nat

namespace XenCtxTransport

def new (domainId : UInt32) : XenCtxTransport :=
  ⟨"xenctx", domainId, defaultCommandTimeout⟩

def readRegister (self : XenCtxTransport) (host : Host ω) (world : ω)
    (vcpu : UInt32) (register : String) : ω × Result UInt64 :=
  match validateRegister register with
  | .error error => (world, .error error)
  | .ok () =>
      let (world, text) := host.runForText world self.executable
        [toString self.domainId.toNat, toString vcpu.toNat] self.timeout
        "xenctx"
      (world, text.bind fun text => parseXenctxRegister text register)

/-- Writing is what the trait provides. -/
def cpuTransport (self : XenCtxTransport) (host : Host ω) :
    XenCpuTransport ω where
  readRegister := self.readRegister host
  supportsWrite := false
  writeRegister := fun world _ _ _ => (world, .error (.backend
    "Xen CPU transport does not support register writes"))

end XenCtxTransport

end LibVmi.Xen
