import LibVmi.Artifact.ReadInto
import LibVmi.Data.Runs
import LibVmi.Data.Tickets

namespace LibVmi.Ffi

open Data Artifact

/-! What the C calls on snapshots return, and the text they leave for
`vmi_last_error`. An error that another crate reports is kept as it is, to be
shown. -/

inductive VmiStatus where
  | ok
  | invalidArgument
  | artifactError
  | readError
  | bufferTooSmall
  | panic
  deriving DecidableEq, Repr

inductive LastError where
  | text (message : String)
  | shown (error : VmiError)
  deriving DecidableEq, Repr

def maxPathBytes : Nat := 32 * 1024

inductive OpenError where
  | null
  | empty
  | notUtf8 (error : String)
  | tooLong
  | allocation (error : String)
  | unknownFormat (format : UInt32)
  | growth (error : String)
  | exhausted
  | artifact (error : VmiError)
  deriving DecidableEq, Repr

namespace OpenError

def status : OpenError → VmiStatus
  | .null | .empty | .notUtf8 _ | .tooLong | .unknownFormat _ =>
      .invalidArgument
  | .allocation _ | .growth _ | .exhausted => .panic
  | .artifact _ => .artifactError

def lastError : OpenError → LastError
  | .null => .text "path and out_snapshot must not be null"
  | .empty => .text "path must not be empty"
  | .notUtf8 error => .text ("path is not valid UTF-8: " ++ error)
  | .tooLong => .text s!"path exceeds {maxPathBytes} bytes"
  | .allocation error => .text ("failed to allocate artifact path: " ++ error)
  | .unknownFormat format => .text s!"unknown artifact format {format}"
  | .growth error =>
      .text ("failed to grow snapshot handle registry: " ++ error)
  | .exhausted => .text "snapshot handle space exhausted"
  | .artifact error => .shown error

end OpenError

inductive UseError where
  | outputNull
  | outputTooLong
  | countNull
  | segmentNull
  | segmentAliased
  | snapshotNull
  | notLive
  deriving DecidableEq, Repr

def UseError.status : UseError → VmiStatus := fun _ => .invalidArgument

def UseError.lastError : UseError → LastError
  | .outputNull => .text "snapshot and non-empty output must not be null"
  | .outputTooLong => .text "snapshot output length exceeds Rust slice limits"
  | .countNull => .text "snapshot and out_count must not be null"
  | .segmentNull => .text "snapshot and segment outputs must not be null"
  | .segmentAliased => .text "segment start and length outputs must not alias"
  | .snapshotNull => .text "snapshot must not be null"
  | .notLive => .text "snapshot handle is not live"

/-! Before `vmi_snapshot_open` asks for the registry. -/

inductive VmiArtifactFormat where
  | raw (base : Gpa)
  | elfVmcore
  | lime
  | manifest
  | xenCore
  | kdmp
  deriving DecidableEq, Repr

/-- The path is what `CStr` makes of the pointer: nothing for null, a text, or
what is wrong with it. -/
structure OpenRequest where
  path : Option (Except String String)
  format : UInt32
  rawBase : UInt64
  outputNull : Bool

def OpenRequest.artifactFormat (request : OpenRequest) :
    Option VmiArtifactFormat :=
  match request.format.toNat with
  | 0 => some (.raw ⟨request.rawBase⟩)
  | 1 => some .elfVmcore
  | 2 => some .lime
  | 3 => some .manifest
  | 4 => some .xenCore
  | 5 => some .kdmp
  | _ => none

/-- `allocated` is the outcome of reserving room for the path, and `load` reads
the files as they are when the call reads them. -/
def OpenRequest.bundle (request : OpenRequest) (allocated : Except String Unit)
    (load : VmiArtifactFormat → String → Result SnapshotBundle) :
    Except OpenError SnapshotBundle := do
  let path ← okOr request.path .null
  rejectIf request.outputNull .null
  let path ← path.mapError .notUtf8
  rejectIf (path.utf8ByteSize = 0) .empty
  rejectIf (maxPathBytes < path.utf8ByteSize) .tooLong
  allocated.mapError .allocation
  let format ← okOr request.artifactFormat (.unknownFormat request.format)
  (load format path).mapError .artifact

/-! The calls that use a handle: what they check before they look it up, and
what they answer from the snapshot they found. -/

inductive SegmentOutputs where
  | missing
  | aliased
  | distinct
  deriving DecidableEq, Repr

inductive Use where
  | read (address : Gpa) (output : List UInt8) (null : Bool)
  | segmentCount (null : Bool)
  | segment (index : Nat) (outputs : SegmentOutputs)
  deriving DecidableEq

inductive Output where
  | bytes (output : List UInt8)
  | count (count : Nat)
  | bounds (start length : UInt64)
  deriving DecidableEq

structure Answer where
  status : VmiStatus
  error : LastError
  output : Output
  deriving DecidableEq

def noError : LastError := .text ""

namespace Use

def check : Use → Except UseError Unit
  | .read _ output null => do
      rejectIf (null ∧ output.length ≠ 0) .outputNull
      rejectIf (2 ^ 63 - 1 < output.length) .outputTooLong
  | .segmentCount null => rejectIf null .countNull
  | .segment _ outputs => do
      rejectIf (outputs = .missing) .segmentNull
      rejectIf (outputs = .aliased) .segmentAliased

def answer (bundle : SnapshotBundle) : Use → Answer
  | .read address output _ =>
      match bundle.readInto address output with
      | (output, .ok _) => ⟨.ok, noError, .bytes output⟩
      | (output, .error error) => ⟨.readError, .shown error, .bytes output⟩
  | .segmentCount _ => ⟨.ok, noError, .count bundle.segments.length⟩
  | .segment index _ =>
      match bundle.segments[index]? with
      | some found =>
          ⟨.ok, noError, .bounds found.range.start.raw found.range.length⟩
      | none => ⟨.invalidArgument,
          .text s!"segment index {index} is out of range", .bounds 0 0⟩

end Use

inductive Closing where
  | null
  | removed
  | notLive
  deriving DecidableEq, Repr

def Closing.lastError : Closing → LastError
  | .null | .removed => noError
  | .notLive => .text "snapshot handle is not live"

/-! The registry. Handles are tokens, never addresses, and the null handle is
token zero. -/

/-- What a call still has to do under the lock of the registry. -/
inductive Task where
  | reserve (bundle : SnapshotBundle)
  | allocate (bundle : SnapshotBundle)
  | exchange (bundle : SnapshotBundle) (current : Nat)
  | insert (bundle : SnapshotBundle) (token : Nat)
  | lookup (token : Nat) (use : Use)
  | remove (token : Nat)

inductive Outcome where
  | opened (bundle : SnapshotBundle) (token : Nat)
  | openFailed (error : OpenError)
  | used (token : Nat) (use : Use) (answer : Answer)
  | useFailed (token : Nat) (use : Use) (error : UseError)
  | closed (token : Nat) (closing : Closing)

inductive Phase where
  | idle
  | waiting (task : Task)
  | holding (task : Task)
  | cloned (token : Nat) (use : Use) (bundle : SnapshotBundle)
  | returned (outcome : Outcome)

structure Registry where
  handles : Nat → Option SnapshotBundle
  counter : Nat
  holder : Option Nat
  calls : Nat → Phase

/-- `growthFails` and `exchangeFails` are the two places where a call under the
lock depends on more than the registry: reserving an entry, and the weak
exchange, which may fail for no reason. -/
inductive Action where
  | beginOpen (id : Nat) (request : OpenRequest)
      (allocated : Except String Unit)
      (load : VmiArtifactFormat → String → Result SnapshotBundle)
  | beginUse (id token : Nat) (use : Use)
  | beginClose (id token : Nat)
  | advance (id : Nat)
  | growthFails (id : Nat) (error : String)
  | exchangeFails (id : Nat)

namespace Registry

def start : Registry := ⟨fun _ => none, 1, none, fun _ => .idle⟩

def setPhase (registry : Registry) (id : Nat) (phase : Phase) : Registry :=
  { registry with calls := Function.update registry.calls id phase }

/-- The guard is dropped with the last thing done under it. Nothing done under
it panics, so the lock is never poisoned. -/
def release (registry : Registry) (id : Nat) (phase : Phase) : Registry :=
  { registry with holder := none }.setPhase id phase

/-- One turn of the loop of `next_snapshot_token`. -/
def exchange (registry : Registry) (id : Nat) (bundle : SnapshotBundle)
    (current : Nat) (spurious : Bool) : Registry :=
  match compareExchange registry.counter current spurious with
  | .exhausted => registry.release id (.returned (.openFailed .exhausted))
  | .taken next =>
      { registry with counter := next }.setPhase id
        (.holding (.insert bundle current))
  | .observed current => registry.setPhase id
      (.holding (.exchange bundle current))

def perform (registry : Registry) (id : Nat) : Task → Registry
  | .reserve bundle => registry.setPhase id (.holding (.allocate bundle))
  | .allocate bundle =>
      registry.setPhase id (.holding (.exchange bundle registry.counter))
  | .exchange bundle current => registry.exchange id bundle current false
  | .insert bundle token =>
      { registry with handles :=
          Function.update registry.handles token (some bundle) }.release id
        (.returned (.opened bundle token))
  | .lookup token use =>
      match registry.handles token with
      | some bundle => registry.release id (.cloned token use bundle)
      | none => registry.release id (.returned (.useFailed token use .notLive))
  | .remove token =>
      match registry.handles token with
      | some _ =>
          { registry with handles :=
              Function.update registry.handles token none }.release id
            (.returned (.closed token .removed))
      | none => registry.release id (.returned (.closed token .notLive))

def advance (registry : Registry) (id : Nat) : Option Registry :=
  match registry.calls id with
  | .waiting task =>
      match registry.holder with
      | some _ => none
      | none => some ({ registry with holder := some id }.setPhase id
          (.holding task))
  | .holding task => some (registry.perform id task)
  | .cloned token use bundle => some (registry.setPhase id
      (.returned (.used token use (use.answer bundle))))
  | .idle | .returned _ => none

/-- Where a call goes from its arguments. -/
def openPhase : Except OpenError SnapshotBundle → Phase
  | .ok bundle => .waiting (.reserve bundle)
  | .error error => .returned (.openFailed error)

def usePhase (token : Nat) (use : Use) : Phase :=
  match use.check with
  | .error error => .returned (.useFailed token use error)
  | .ok _ =>
      if token = 0 then .returned (.useFailed token use .snapshotNull)
      else .waiting (.lookup token use)

def closePhase (token : Nat) : Phase :=
  if token = 0 then .returned (.closed token .null)
  else .waiting (.remove token)

def step (registry : Registry) : Action → Option Registry
  | .beginOpen id request allocated load =>
      match registry.calls id with
      | .idle => some (registry.setPhase id
          (openPhase (request.bundle allocated load)))
      | _ => none
  | .beginUse id token use =>
      match registry.calls id with
      | .idle => some (registry.setPhase id (usePhase token use))
      | _ => none
  | .beginClose id token =>
      match registry.calls id with
      | .idle => some (registry.setPhase id (closePhase token))
      | _ => none
  | .advance id => registry.advance id
  | .growthFails id error =>
      match registry.calls id with
      | .holding (.reserve _) =>
          some (registry.release id (.returned (.openFailed (.growth error))))
      | _ => none
  | .exchangeFails id =>
      match registry.calls id with
      | .holding (.exchange bundle current) =>
          some (registry.exchange id bundle current true)
      | _ => none

/-- A step of any call at any moment. -/
abbrev Step (registry : Registry) (action : Action) (next : Registry) : Prop :=
  registry.step action = some next

end Registry

end LibVmi.Ffi
