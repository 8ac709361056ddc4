import LibVmi.Artifact.Bundle
import LibVmi.Data.Capture
import LibVmi.Data.Json

namespace LibVmi.Artifact

open Data

/-! Paths of a Unix host. Paths are compared and joined by their components;
only a leading `.` is one. -/

inductive Component where
  | root
  | current
  | parent
  | normal (name : List Char)
  deriving DecidableEq, Repr

abbrev Path := List Component

namespace Path

def component : List Char → Option Component
  | [] => none
  | ['.'] => some .current
  | ['.', '.'] => some .parent
  | name => some (.normal name)

def parse (text : String) : Path :=
  let absolute := text.toList.head? = some '/'
  let parts := (text.toList.splitOn '/').filterMap component
  match parts with
  | first :: rest =>
      (if absolute then [.root] else []) ++
        (if absolute ∧ first = .current then [] else [first]) ++
        rest.filter (· ≠ .current)
  | [] => if absolute then [.root] else []

def isAbsolute (path : Path) : Prop :=
  path.head? = some .root

instance (path : Path) : Decidable path.isAbsolute :=
  inferInstanceAs (Decidable (_ = _))

def join (base path : Path) : Path :=
  if path.isAbsolute then path
  else if base = [] then path
  else base ++ path.filter (· ≠ .current)

def parent (path : Path) : Option Path :=
  match path.getLast? with
  | none | some .root => none
  | some _ => some path.dropLast

def text : Component → List Char
  | .root => []
  | .current => ['.']
  | .parent => ['.', '.']
  | .normal name => name

def display (path : Path) : String :=
  if path = [.root] then "/"
  else String.ofList (List.intercalate ['/'] (path.map text))

end Path

/-! Files of a host. -/

structure File where
  length : Except String UInt64
  source : Source
  seek : UInt64 → Except String Source

/-- Access to the file gives what was written to it. -/
structure File.Holds (file : File) (contents : Buffer) : Prop where
  length : file.length = .ok (UInt64.ofNat contents.length)
  source : file.source.bytes = contents.bytes ∧ file.source.Reliable
  seek : ∀ offset, ∃ source, file.seek offset = .ok source ∧
    source.bytes = contents.bytes.drop offset.toNat ∧ source.Reliable

def diskFile (contents : Buffer) : File where
  length := .ok (UInt64.ofNat contents.length)
  source := ⟨contents.bytes, []⟩
  seek := fun offset => .ok ⟨contents.bytes.drop offset.toNat, []⟩

theorem diskFile_holds (contents : Buffer) :
    (diskFile contents).Holds contents :=
  ⟨rfl, ⟨rfl, by simp [diskFile, Source.Reliable]⟩, fun _ =>
    ⟨_, rfl, rfl, by simp [Source.Reliable]⟩⟩

/-- What the loaders ask of the host they run on and of the JSON library.
Failures come with the text that is reported. -/
structure Host where
  canonicalize : Path → Except String Path
  openFile : Path → Except String File
  fromStr : String → Except String Json
  utf8Error : List UInt8 → String

def captureLimit (maximum : UInt64) : Nat :=
  min (maximum.toNat + 1) (2 ^ 64 - 1)

def capacityOverflow : String :=
  "memory allocation failed because the computed capacity exceeded the " ++
    "collection's maximum"

/-- The loop of `read_file_limited`. -/
def captureFrom (path description : String) (maximum : UInt64)
    (source : Source) (data : Buffer) : Result Buffer :=
  let remaining := captureLimit maximum - data.length
  if remaining = 0 then
    match (readRetry source 1).2 with
    | .error error => .error (.backend s!"failed to read {path}: {error}")
    | .ok sentinel =>
        if sentinel ≠ [] then
          .error (.backend
            s!"{description} grew beyond {maximum} bytes while being read")
        else .ok data
  else
    match readRetry source (min remaining 65536) with
    | (_, .error error) => .error (.backend s!"failed to read {path}: {error}")
    | (next, .ok chunk) =>
        if _empty : chunk = [] then .ok data
        else
          match _grown : Buffer.allocate (data.bytes ++ chunk) with
          | none => .error (.backend
              s!"failed to grow {description} buffer: {capacityOverflow}")
          | some longer =>
              if maximum.toNat < longer.length then
                .error (.backend
                  s!"{description} grew beyond {maximum} bytes while being read")
              else captureFrom path description maximum next longer
termination_by captureLimit maximum - data.length
decreasing_by
  have grown := congrArg List.length (Buffer.allocate_eq_some.mp _grown)
  have positive := List.length_pos_iff.mpr _empty
  rw [List.length_append] at grown
  change longer.length = data.length + _ at grown
  omega

def readFileLimited (host : Host) (path : String) (maximum : UInt64)
    (description : String) : Result Buffer := do
  rejectIf (maximum = 0)
    (.backend s!"maximum {description} size must be non-zero")
  let file ← (host.openFile (Path.parse path)).mapError fun error =>
    .backend s!"failed to open {path}: {error}"
  let size ← file.length.mapError fun error =>
    .backend s!"failed to inspect {path}: {error}"
  rejectIf (maximum.toNat < size.toNat)
    (.backend s!"{description} size {size} exceeds {maximum} bytes")
  rejectIf (2 ^ 63 ≤ size.toNat)
    (.backend s!"failed to allocate {description} buffer: {capacityOverflow}")
  captureFrom path description maximum file.source .empty

/-! The loop, as one that any bounded reader runs. -/

def fileRefusals (path description : String) (maximum : UInt64) :
    Refusals VmiError where
  read := fun error => .backend s!"failed to read {path}: {error}"
  grow := .backend s!"failed to grow {description} buffer: {capacityOverflow}"
  exceeds := .backend
    s!"{description} grew beyond {maximum} bytes while being read"

theorem captureFrom_eq (path description : String) (maximum : UInt64)
    (source : Source) (data : Buffer) :
    captureFrom path description maximum source data =
      capture (fileRefusals path description maximum) 65536
        (captureLimit maximum) maximum.toNat source data := by
  fun_induction captureFrom path description maximum source data with
  | case1 source data remaining full error read =>
      unfold remaining at full
      obtain ⟨next, readEq⟩ : ∃ next, readRetry source 1 = (next, .error error) :=
        ⟨_, Prod.ext rfl read⟩
      refine (capture_eq_of_result ?_).symm
      simp only [captureTurn, full, if_true, readEq]
      rfl
  | case2 source data remaining full sentinel read more =>
      unfold remaining at full
      obtain ⟨next, readEq⟩ : ∃ next, readRetry source 1 = (next, .ok sentinel) :=
        ⟨_, Prod.ext rfl read⟩
      refine (capture_eq_of_result ?_).symm
      simp only [captureTurn, full, if_true, readEq]
      rw [if_pos more]
      rfl
  | case3 source data remaining full sentinel read ended =>
      unfold remaining at full
      obtain ⟨next, readEq⟩ : ∃ next, readRetry source 1 = (next, .ok sentinel) :=
        ⟨_, Prod.ext rfl read⟩
      refine (capture_eq_of_result ?_).symm
      simp only [captureTurn, full, if_true, readEq, ended, if_false]
  | case4 source data remaining room next error read =>
      unfold remaining at room read
      refine (capture_eq_of_result ?_).symm
      simp only [captureTurn, room, if_false, read]
      rfl
  | case5 source data remaining room next read =>
      unfold remaining at room read
      refine (capture_eq_of_result ?_).symm
      simp only [captureTurn, room, if_false, read, if_true]
  | case6 source data remaining room next chunk read nonempty failed =>
      unfold remaining at room read
      refine (capture_eq_of_result ?_).symm
      simp only [captureTurn, room, if_false, read, nonempty, failed]
      rfl
  | case7 source data remaining room next chunk read nonempty longer allocated
      exceeds =>
      unfold remaining at room read
      refine (capture_eq_of_result ?_).symm
      simp only [captureTurn, room, if_false, read, nonempty, allocated, exceeds,
        if_true]
      rfl
  | case8 source data remaining room next chunk read nonempty longer allocated
      within induction =>
      unfold remaining at room read
      have turn : Onward (fileRefusals path description maximum) 65536
          (captureLimit maximum) maximum.toNat (source, data) (next, longer) := by
        simp only [Onward, captureTurn, room, if_false, read, nonempty,
          allocated, within]
      rw [induction]
      exact (capture_onward turn).symm

theorem captureLimit_bounds (maximum : UInt64) :
    maximum.toNat ≤ captureLimit maximum ∧
      captureLimit maximum ≤ maximum.toNat + 1 := by
  have bound := maximum.toNat_lt
  unfold captureLimit
  omega

/-- A file whose size is within the maximum when it is opened is left to the
loop, whatever it holds by then. -/
theorem readFileLimited_opened {host : Host} {path : String} {file : File}
    (opened : host.openFile (Path.parse path) = .ok file) {size : UInt64}
    (reported : file.length = .ok size) {maximum : UInt64}
    (positive : maximum ≠ 0) (within : size ≤ maximum)
    (allocates : size.toNat < 2 ^ 63) (description : String) :
    readFileLimited host path maximum description =
      capture (fileRefusals path description maximum) 65536
        (captureLimit maximum) maximum.toNat file.source .empty := by
  have sizes := UInt64.le_iff_toNat_le.mp within
  unfold readFileLimited
  rw [rejectIf_neg positive, ok_bind, opened]
  simp only [Except.mapError, ok_bind, reported]
  rw [rejectIf_neg (Nat.not_lt.mpr sizes), ok_bind,
    rejectIf_neg (Nat.not_le.mpr allocates), ok_bind, captureFrom_eq]

/-- What is read of a file is all that its source has. -/
theorem readFileLimited_bytes {host : Host} {path : String} {maximum : UInt64}
    {description : String} {data : Buffer}
    (read : readFileLimited host path maximum description = .ok data) :
    ∃ file size, host.openFile (Path.parse path) = .ok file ∧
      file.length = .ok size ∧ size.toNat ≤ maximum.toNat ∧
      data.bytes = file.source.bytes := by
  simp only [readFileLimited, bind_eq_ok, mapError_eq_ok, rejectIf_eq_ok,
    captureFrom_eq] at read
  obtain ⟨_, _, file, opened, size, sized, _, within, _, _, captured⟩ := read
  exact ⟨file, size, opened, sized, Nat.not_lt.mp within,
    capture_ok_bytes (by decide) captured⟩

/-- A file that holds its contents is read whole. -/
theorem readFileLimited_holds {host : Host} {path : String} {file : File}
    (opened : host.openFile (Path.parse path) = .ok file) {contents : Buffer}
    (holds : file.Holds contents) {maximum : UInt64} (positive : maximum ≠ 0)
    (within : contents.length ≤ maximum.toNat) (description : String) :
    readFileLimited host path maximum description = .ok contents := by
  have small : (UInt64.ofNat contents.length).toNat = contents.length :=
    UInt64.toNat_ofNat_of_lt' contents.length_lt_limit
  have reported : UInt64.ofNat contents.length ≤ maximum := by
    rw [UInt64.le_iff_toNat_le, small]
    exact within
  have allocates : (UInt64.ofNat contents.length).toNat < 2 ^ 63 := by
    rw [small]
    exact contents.length_lt
  rw [readFileLimited_opened opened holds.length positive reported allocates,
    capture_ok_iff holds.source.2 (by decide) (captureLimit_bounds maximum).1
      (Nat.zero_le _), holds.source.1]
  exact ⟨rfl, within⟩

/-- The loop of `read_file_prefix`. -/
def capturePrefix (path : String) (maximum : Nat) (source : Source)
    (captured : Buffer) : Result Buffer :=
  if _more : captured.length < maximum then
    match readRetry source (min (maximum - captured.length) 8192) with
    | (_, .error error) => .error (.backend s!"failed to read {path}: {error}")
    | (next, .ok chunk) =>
        if _empty : chunk = [] then .ok captured
        else
          match _grown : Buffer.allocate (captured.bytes ++ chunk) with
          | none => .error (.backend
              s!"failed to grow artifact prefix buffer: {capacityOverflow}")
          | some longer => capturePrefix path maximum next longer
  else .ok captured
termination_by maximum - captured.length
decreasing_by
  have grown := congrArg List.length (Buffer.allocate_eq_some.mp _grown)
  have positive := List.length_pos_iff.mpr _empty
  rw [List.length_append] at grown
  change longer.length = captured.length + _ at grown
  omega

def readFilePrefix (host : Host) (path : String) (maximum : Nat) :
    Result Buffer := do
  let file ← (host.openFile (Path.parse path)).mapError fun error =>
    .backend s!"failed to open {path}: {error}"
  rejectIf (2 ^ 63 ≤ maximum)
    (.backend s!"failed to allocate artifact prefix buffer: {capacityOverflow}")
  capturePrefix path maximum file.source .empty

theorem capturePrefix_reliable (path : String) {maximum : Nat}
    {source : Source} (reliable : source.Reliable) {captured whole : Buffer}
    (joined : whole.bytes = captured.bytes ++ source.bytes)
    (within : captured.length ≤ maximum) :
    capturePrefix path maximum source captured =
      .ok (whole.first maximum) := by
  induction distance : maximum - captured.length using Nat.strong_induction_on
    generalizing source captured with
  | _ distance induction =>
      subst distance
      rw [capturePrefix]
      split
      · rename_i more
        obtain ⟨next, chunk, read, nextReliable⟩ := readRetry_reliable reliable
          (min (maximum - captured.length) 8192)
        obtain ⟨splits, chunkLength⟩ := readRetry_splits read
        rw [read]
        by_cases empty : chunk = []
        · simp only [empty, dite_true]
          rw [empty] at read
          have nothing := readRetry_ended (by omega) read
          apply congrArg Except.ok
          apply Buffer.ext
          rw [Buffer.first_bytes, joined, nothing, List.append_nil]
          exact (List.take_of_length_le within).symm
        · simp only [empty, dite_false]
          have nonempty := List.length_pos_iff.mpr empty
          split
          · rename_i failed
            have large := Buffer.allocate_eq_none.mp failed
            have bound := whole.length_lt
            rw [joined, splits, ← List.append_assoc, List.length_append]
              at bound
            omega
          · rename_i longer allocated
            have longerEq := Buffer.allocate_eq_some.mp allocated
            have longerLength := Buffer.length_of_allocate allocated
            refine induction _ (by omega) nextReliable ?_ (by omega) rfl
            rw [longerEq, joined, splits, List.append_assoc]
      · rename_i full
        apply congrArg Except.ok
        apply Buffer.ext
        have filled : captured.bytes.length = maximum :=
          Nat.le_antisymm within (Nat.not_lt.mp full)
        rw [Buffer.first_bytes, joined, List.take_left' filled]

/-- The beginning of a file that holds its contents. -/
theorem readFilePrefix_holds {host : Host} {path : String} {file : File}
    (opened : host.openFile (Path.parse path) = .ok file) {contents : Buffer}
    (holds : file.Holds contents) {maximum : Nat}
    (small : maximum < 2 ^ 63) :
    readFilePrefix host path maximum = .ok (contents.first maximum) := by
  unfold readFilePrefix
  rw [opened]
  simp only [Except.mapError, ok_bind]
  rw [rejectIf_neg (Nat.not_le.mpr small), ok_bind]
  exact capturePrefix_reliable path holds.source.2
    (by rw [holds.source.1]; rfl) (Nat.zero_le _)

/-! Raw images. -/

def fromRaw (source : String) (base : Gpa) (data : Buffer) : SnapshotBundle :=
  ⟨⟨"raw", source⟩, [.new base data]⟩

def tryFromRaw (source : String) (base : Gpa) (data : Buffer) :
    Result SnapshotBundle := do
  rejectIf (2 ^ 64 < base.raw.toNat + data.length)
    (.backend ("raw artifact at " ++ hex base.raw.toNat ++
      " extends beyond the physical address space"))
  return fromRaw source base data

def rawFileWithLimit (host : Host) (path : String) (base : Gpa)
    (maxFileSize : UInt64) : Result SnapshotBundle := do
  let data ← readFileLimited host path maxFileSize "raw artifact"
  tryFromRaw path base data

end LibVmi.Artifact
