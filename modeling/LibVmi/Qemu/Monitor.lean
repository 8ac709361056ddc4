import LibVmi.Data.Json
import LibVmi.Data.PathLookup
import LibVmi.Data.Text
import LibVmi.Types

namespace LibVmi.Qemu

open Data

/-! Acquisition through the monitor: the destination is checked on the host,
rewritten, and put into the text of a command. An allocation is taken to fail
exactly past the largest size there is. -/

def tryReserve (capacity : Nat) (failure : String) : Result Unit :=
  rejectIf (2 ^ 63 ≤ capacity) (.backend (s!"{failure}: memory allocation " ++
    "failed because the computed capacity exceeded the collection's maximum"))

/-- The path of a directory as the host reports it. -/
inductive OsText where
  | utf8 (text : List Char)
  | bytes (raw : List UInt8)
  deriving DecidableEq, Repr

namespace OsText

def length : OsText → Nat
  | .utf8 text => utf8Length text
  | .bytes raw => raw.length

def push (path : List Char) : OsText → OsText
  | .utf8 text => .utf8 (joinText text path)
  | .bytes raw => .bytes (raw ++ (if raw.getLast? = some 0x2f then [] else [0x2f])
      ++ (String.ofList path).toUTF8.toList)

def toStr : OsText → Option (List Char)
  | .utf8 text => some text
  | .bytes _ => none

end OsText

/-- The file system that destinations are checked on. -/
structure MonitorHost (ν : Type) where
  tree : FileTree ν
  workingDirectory : ν
  currentDir : Except String OsText

def lookupText : LookupError → String
  | .notFound => "No such file or directory (os error 2)"
  | .notDirectory => "Not a directory (os error 20)"
  | .tooManyLinks => "Too many levels of symbolic links (os error 40)"
  | .interiorNul => "file name contained an unexpected NUL byte"

def escapeCharacter (character : Char) : List Char :=
  if character = '\\' ∨ character = '"' then ['\\', character]
  else [character]

def tryEscapeMonitorPath (path : List Char) : Result (List Char) := do
  let extra := path.countP fun character => character = '\\' ∨ character = '"'
  let capacity ← okOr (Usize.checkedAdd (utf8Length path) extra)
    (.backend "QEMU monitor path length overflow")
  tryReserve capacity "failed to allocate escaped QEMU monitor path"
  return path.flatMap escapeCharacter

def tryOwnedPath (path : List Char) (description : String) :
    Result OsText := do
  tryReserve (utf8Length path) s!"failed to allocate {description} path"
  return .utf8 path

def tryJoinPath (parent : OsText) (child : List Char) (description : String) :
    Result OsText := do
  let capacity ← okOr
    ((Usize.checkedAdd parent.length (utf8Length child)).bind
      (Usize.checkedAdd · 1))
    (.backend s!"{description} path length overflow")
  tryReserve capacity s!"failed to allocate {description} path"
  return parent.push child

def normalized (character : Char) : Char :=
  if character = '\\' then '/' else character

section Host

variable {ν : Type} (host : MonitorHost ν)

def resolvePath (path : List Char) : Result OsText :=
  if absolutePath path then
    tryOwnedPath path "QEMU acquisition"
  else do
    let current ← host.currentDir.mapError fun error =>
      .backend s!"failed to resolve QEMU acquisition path: {error}"
    tryJoinPath current path "QEMU acquisition"

def monitorPath (path : List Char) : Result (List Char) := do
  let resolved ← resolvePath host path
  let resolved ← okOr resolved.toStr
    (.backend "QEMU acquisition path is not UTF-8")
  tryReserve (utf8Length resolved) "failed to allocate QEMU acquisition path"
  let text := resolved.map normalized
  rejectIf (text.any isControl)
    (.backend "QEMU acquisition path contains control characters")
  return text

def monitorDestination (path : List Char) : Result (List Char) :=
  match host.tree.lstat host.workingDirectory path with
  | .ok _ => .error (.backend
      ("refusing to replace existing QEMU acquisition output " ++
        String.ofList path))
  | .error .notFound => monitorPath host path
  | .error error => .error (.backend
      (s!"failed to inspect QEMU acquisition output {String.ofList path}: " ++
        lookupText error))

def tryFormatCommand (capacity : Nat) (text : List Char)
    (description : String) : Result String := do
  tryReserve capacity s!"failed to allocate {description} command"
  return String.ofList text

def pmemsave (start length : UInt64) (escapedPath : List Char) : List Char :=
  "pmemsave ".toList ++ Nat.toDigits 10 start.toNat ++ ' ' ::
    Nat.toDigits 10 length.toNat ++ ' ' :: '"' :: escapedPath ++ ['"']

/-- The command that `save_physical_range` hands to the monitor. -/
def physicalRangeCommand (path : List Char) (start : Gpa) (length : UInt64) :
    Result String := do
  rejectIf (length = 0) (.backend "acquisition length must be non-zero")
  let _ ← okOr (checkedAdd start.raw length)
    (.backend "QEMU acquisition physical range overflows")
  let path ← monitorDestination host path
  let escapedPath ← tryEscapeMonitorPath path
  let capacity ← okOr (Usize.checkedAdd (utf8Length escapedPath) 53)
    (.backend "QEMU acquisition command length overflow")
  tryFormatCommand capacity (pmemsave start.raw length escapedPath)
    "QEMU acquisition"

def savePhysicalRange (hmp : String → Result Json) (path : List Char)
    (start : Gpa) (length : UInt64) : Result Unit := do
  let command ← physicalRangeCommand host path start length
  let _ ← hmp command
  return ()

/-- The protocol that `save_snapshot` asks the dump to be written by. -/
def snapshotProtocol (path : List Char) : Result String := do
  let path ← monitorDestination host path
  let capacity ← okOr (Usize.checkedAdd (utf8Length path) 5)
    (.backend "QEMU dump protocol length overflow")
  tryFormatCommand capacity ("file:".toList ++ path) "QEMU dump protocol"

def saveSnapshot (execute : String → Option Json → Result Json)
    (path : List Char) : Result Unit := do
  let protocol ← snapshotProtocol host path
  let _ ← execute "dump-guest-memory" (some (.object
    [("paging", .bool false), ("protocol", .string protocol)]))
  return ()

end Host

/-! A quoted argument, as the monitor reads it. -/

/-- The text of an argument up to the quote that ends it, and what follows. -/
def quotedBody : List Char → Option (List Char × List Char)
  | [] => none
  | '"' :: rest => some ([], rest)
  | '\\' :: '"' :: rest =>
      (quotedBody rest).map fun (text, after) => ('"' :: text, after)
  | '\\' :: '\\' :: rest =>
      (quotedBody rest).map fun (text, after) => ('\\' :: text, after)
  | character :: rest =>
      (quotedBody rest).map fun (text, after) => (character :: text, after)

def quotedArgument : List Char → Option (List Char × List Char)
  | '"' :: rest => quotedBody rest
  | _ => none

end LibVmi.Qemu
