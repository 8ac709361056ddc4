import LibVmi.Data.Budget
import LibVmi.Data.Runs
import LibVmi.Data.Text
import LibVmi.Types

namespace LibVmi.Commands

open Data

/-! The bounded capture of a command's output. Two readers share a byte budget
and a flag, while the main thread waits for the child. Every access to what they
share is one step. -/

/-- `validated` is whether the arguments are checked before the command starts,
and the lengths once more at its end. -/
structure Limits where
  commandName : String
  capacity : Nat
  timeoutOperation : String
  validated : Bool
  representable : capacity < Usize.limit

def xen (commandName : String) (capacity : Nat)
    (representable : capacity < Usize.limit) : Limits :=
  ⟨commandName, capacity, "Xen command", true, representable⟩

def virtualBox (commandName : String) (capacity : Nat)
    (representable : capacity < Usize.limit) : Limits :=
  ⟨commandName, capacity, "VirtualBox command", true, representable⟩

/-- The `COMMAND_OUTPUT_CAPACITY` of the libvirt driver. -/
def commandOutputCapacity : Nat := 1024 * 1024

def libvirt : Limits :=
  ⟨"virsh", commandOutputCapacity, "libvirt command", false, by decide⟩

inductive Stream where
  | stdout
  | stderr
  deriving DecidableEq, Repr

def Stream.name : Stream → String
  | .stdout => "stdout"
  | .stderr => "stderr"

inductive Failure where
  | zeroTimeout
  | capacityTooLarge
  | wait (error : String)
  | outputExceeded
  | timedOut
  | read (stream : Stream) (error : String)
  | lengthOverflow
  deriving DecidableEq, Repr

def Failure.error (limits : Limits) : Failure → VmiError
  | .zeroTimeout =>
      .backend (limits.commandName ++ " timeout must be non-zero")
  | .capacityTooLarge => .backend (limits.commandName ++
      " output capacity is too large for bounded capture")
  | .wait error => .backend ("failed to wait for " ++ limits.commandName ++
      ": " ++ error)
  | .outputExceeded => .backend (limits.commandName ++ " output exceeds " ++
      toString limits.capacity ++ " bytes")
  | .timedOut => .timeout limits.timeoutOperation
  | .read stream error => .backend ("failed to read " ++ limits.commandName ++
      " " ++ stream.name ++ ": " ++ error)
  | .lengthOverflow =>
      .backend (limits.commandName ++ " output length overflow")

/-- No other failure reads as if the output were too long, whatever the name of
the command. -/
theorem Failure.error_eq_exceeded {limits : Limits} {failure : Failure}
    (same : failure.error limits = Failure.outputExceeded.error limits) :
    failure = .outputExceeded := by
  cases failure with
  | outputExceeded => rfl
  | timedOut => exact nomatch same
  | zeroTimeout | capacityTooLarge | lengthOverflow =>
      have texts := congrArg String.toList (VmiError.backend.inj same)
      simp only [String.toList_append, List.append_assoc] at texts
      exact absurd (congrArg (·.take 9) (List.append_cancel_left texts))
        (by simp)
  | wait error | read stream error =>
      have texts := congrArg String.toList (VmiError.backend.inj same)
      simp only [String.toList_append, List.append_assoc] at texts
      exact absurd texts (append_ne_of_rotate (by decide) (by decide) _ _)

structure Shared where
  captured : Nat
  exceeded : Bool
  deriving DecidableEq, Repr

/-- Where a reader is in its loop. It ends well at the end of its pipe, and also
after it has set the flag. -/
inductive Phase where
  | reading
  | loading (chunk : List UInt8)
  | exchanging (chunk : List UInt8) (current : Nat)
  | granted (chunk : List UInt8)
  | exceeding
  | finished (result : Except String Unit)
  deriving DecidableEq

/-- `rest` is what the pipe has yet to give. -/
structure Reader where
  bytes : List UInt8
  rest : List UInt8
  phase : Phase
  deriving DecidableEq

inductive ReaderStep where
  | read (count : Nat)
  | readEnd
  | readFailed (error : String)
  | load
  | exchange (spurious : Bool)
  | extend (reserved : Except String Unit)
  | store

def chunkCapacity : Nat := 8192

/-- A step of `read_pipe`, with the reservation it was granted, if any. -/
def Reader.step (limits : Limits) (shared : Shared) (reader : Reader)
    (action : ReaderStep) : Option (Shared × Reader × Option Nat) :=
  match reader.phase, action with
  | .reading, .read count =>
      if 0 < count ∧ count ≤ chunkCapacity ∧ count ≤ reader.rest.length then
        some (shared, ⟨reader.bytes, reader.rest.drop count,
          .loading (reader.rest.take count)⟩, none)
      else none
  | .reading, .readEnd =>
      if reader.rest = [] then
        some (shared, ⟨reader.bytes, [], .finished (.ok ())⟩, none)
      else none
  | .reading, .readFailed error =>
      some (shared,
        ⟨reader.bytes, reader.rest, .finished (.error error)⟩, none)
  | .loading chunk, .load =>
      some (shared,
        ⟨reader.bytes, reader.rest, .exchanging chunk shared.captured⟩, none)
  | .exchanging chunk current, .exchange spurious =>
      match Budget.turn limits.capacity shared.captured current chunk.length
        spurious with
      | .granted next =>
          some (⟨next, shared.exceeded⟩,
            ⟨reader.bytes, reader.rest, .granted chunk⟩, some chunk.length)
      | .observed current =>
          some (shared,
            ⟨reader.bytes, reader.rest, .exchanging chunk current⟩, none)
      | .refused =>
          some (shared, ⟨reader.bytes, reader.rest, .exceeding⟩, none)
  | .granted chunk, .extend reserved =>
      match reserved with
      | .ok () =>
          some (shared,
            ⟨reader.bytes ++ chunk, reader.rest, .reading⟩, none)
      | .error error =>
          some (shared,
            ⟨reader.bytes, reader.rest, .finished (.error error)⟩, none)
  | .exceeding, .store =>
      some (⟨shared.captured, true⟩,
        ⟨reader.bytes, reader.rest, .finished (.ok ())⟩, none)
  | _, _ => none

/-! The main thread. -/

variable {status : Type}

inductive Main (status : Type) where
  | polling
  | checking
  | joiningStdout (exit : status)
  | joiningStderr (exit : status) (stdout : List UInt8)
  | verifying (exit : status) (stdout stderr : List UInt8)
  | returned (result : Except Failure (status × List UInt8 × List UInt8))

structure System (status : Type) where
  shared : Shared
  readers : Stream → Reader
  main : Main status

inductive Action (status : Type) where
  | reader (stream : Stream) (step : ReaderStep)
  | wait (outcome : Except String (Option status))
  | check (expired : Bool)
  | join
  | verify

def validateLengths (limits : Limits) (stdout stderr : Nat) :
    Except Failure Unit := do
  let total ← okOr (Usize.checkedAdd stdout stderr) .lengthOverflow
  rejectIf (limits.capacity < total) .outputExceeded

namespace System

def update (system : System status) (shared : Shared) (stream : Stream)
    (reader : Reader) : System status :=
  ⟨shared, fun other => if other = stream then reader else system.readers other,
    system.main⟩

def goTo (system : System status) (main : Main status) : System status :=
  ⟨system.shared, system.readers, main⟩

def finish (limits : Limits) (system : System status) (exit : status)
    (stdout stderr : List UInt8) :
    Except Failure (status × List UInt8 × List UInt8) := do
  rejectIf (system.shared.exceeded = true) .outputExceeded
  if limits.validated then
    validateLengths limits stdout.length stderr.length
  return (exit, stdout, stderr)

def act (limits : Limits) (system : System status) :
    Action status → Option (System status × Option Nat)
  | .reader stream step => do
      let (shared, reader, granted) ←
        (system.readers stream).step limits system.shared step
      return (system.update shared stream reader, granted)
  | .wait outcome =>
      match system.main, outcome with
      | .polling, .error error =>
          some (system.goTo (.returned (.error (.wait error))), none)
      | .polling, .ok none => some (system.goTo .checking, none)
      | .polling, .ok (some exit) =>
          some (system.goTo (.joiningStdout exit), none)
      | _, _ => none
  | .check expired =>
      match system.main with
      | .checking =>
          if system.shared.exceeded then
            some (system.goTo (.returned (.error .outputExceeded)), none)
          else if expired then
            some (system.goTo (.returned (.error .timedOut)), none)
          else
            some (system.goTo .polling, none)
      | _ => none
  | .join =>
      match system.main with
      | .joiningStdout exit =>
          match (system.readers .stdout).phase with
          | .finished (.ok ()) =>
              some (system.goTo
                (.joiningStderr exit (system.readers .stdout).bytes), none)
          | .finished (.error error) =>
              some (system.goTo (.returned (.error (.read .stdout error))),
                none)
          | _ => none
      | .joiningStderr exit stdout =>
          match (system.readers .stderr).phase with
          | .finished (.ok ()) =>
              some (system.goTo
                (.verifying exit stdout (system.readers .stderr).bytes), none)
          | .finished (.error error) =>
              some (system.goTo (.returned (.error (.read .stderr error))),
                none)
          | _ => none
      | _ => none
  | .verify =>
      match system.main with
      | .verifying exit stdout stderr =>
          some (system.goTo
            (.returned (system.finish limits exit stdout stderr)), none)
      | _ => none

/-- What the function returns, once it does. -/
def result (limits : Limits) (system : System status) :
    Option (Result (status × List UInt8 × List UInt8)) :=
  match system.main with
  | .returned result => some (result.mapError (Failure.error limits))
  | _ => none

def initial (pipes : Stream → List UInt8) : System status :=
  ⟨⟨0, false⟩, fun stream => ⟨[], pipes stream, .reading⟩, .polling⟩

/-- What precedes the two threads. `pipes` is what the child writes. -/
def start (limits : Limits) (timeout : Nat) (pipes : Stream → List UInt8) :
    Except Failure (System status) := do
  if limits.validated then
    rejectIf (timeout = 0) .zeroTimeout
    let _ ← okOr (Usize.checkedAdd limits.capacity 1) Failure.capacityTooLarge
  return initial pipes

end System

end LibVmi.Commands
