import LibVmi.Data.FileSystem
import LibVmi.Data.Tickets
import LibVmi.Types

namespace LibVmi.Acquisition

open Data

/-! Publishing a range: the bytes are written to a temporary file beside the
destination, which is then linked under its name. Three publishers do so, and
they differ in the name of the temporary, in what they say, and in whether they
look for the destination first. -/

/-- An entry of a directory, which is known by its number. -/
structure Entry where
  directory : Nat
  name : List Char
  deriving DecidableEq, Repr

/-- A path as it is shown, the directory its parent leads to, and its file name
if it has one. -/
structure Destination where
  shown : String
  directory : Nat
  name : Option (List Char)
  deriving DecidableEq, Repr

def Destination.entry (destination : Destination) : Option Entry :=
  destination.name.map fun name => ⟨destination.directory, name⟩

inductive Part where
  | suffix
  | filename
  | path
  deriving DecidableEq, Repr

def Part.text : Part → String
  | .suffix => "suffix"
  | .filename => "filename"
  | .path => "path"

inductive PublishError where
  | refused (message : String)
  | noFileName
  | exhausted
  | allocation (part : Part) (error : String)
  | create (error : String)
  | write (error : String)
  | link (error : String)
  | remove (error : String)
  deriving DecidableEq, Repr

structure Publisher where
  marker : List Char
  refusal : Option (String → String)
  message : String → PublishError → String

def refusesToReplace (shown : String) : String :=
  "refusing to replace existing acquisition output " ++ shown

def rangeMessage (provider shown : String) : PublishError → String
  | .refused message => message
  | .noFileName => "acquisition path has no file name"
  | .exhausted => provider ++ " range publication identifier space exhausted"
  | .allocation part error => "failed to allocate " ++ provider ++
      " publication " ++ part.text ++ ": " ++ error
  | .create error => "failed to create acquisition output: " ++ error
  | .write error => "failed to write acquisition output: " ++ error
  | .link error => "failed to publish " ++ shown ++ ": " ++ error
  | .remove error => "published " ++ shown ++
      " but failed to remove temporary output: " ++ error

def fakeMessage (_ : String) : PublishError → String
  | .refused message => message
  | .noFileName => "fake acquisition destination has no file name"
  | .exhausted => "fake acquisition identifier space exhausted"
  | .allocation part error =>
      "failed to allocate fake acquisition " ++ part.text ++ ": " ++ error
  | .create error | .write error | .link error | .remove error =>
      "fake acquisition I/O failed: " ++ error

namespace Publisher

def xen : Publisher :=
  ⟨".vmi-range-".toList, some refusesToReplace, rangeMessage "Xen"⟩

def virtualBox : Publisher :=
  ⟨".vmi-range-".toList, some refusesToReplace, rangeMessage "VirtualBox"⟩

def fakeProvider : Publisher := ⟨".vmi-tmp-".toList, none, fakeMessage⟩

def temporaryName (publisher : Publisher) (process sequence : Nat)
    (name : List Char) : List Char :=
  '.' :: (name ++ publisher.marker ++ Nat.toDigits 10 process ++
    '-' :: Nat.toDigits 10 sequence)

/-- The temporary beside an entry. -/
def temporary (publisher : Publisher) (process sequence : Nat)
    (target : Entry) : Entry :=
  ⟨target.directory, publisher.temporaryName process sequence target.name⟩

theorem temporary_ne (publisher : Publisher) (process sequence : Nat)
    (target : Entry) : publisher.temporary process sequence target ≠ target := by
  intro same
  have lengths := congrArg (fun entry => entry.name.length) same
  simp [temporary, temporaryName] at lengths
  omega

/-- What follows the last dash of a temporary is its sequence number. -/
def lastDigits (name : List Char) : List Char :=
  name.reverse.takeWhile (· ≠ '-')

theorem lastDigits_append (front : List Char) (sequence : Nat) :
    lastDigits (front ++ '-' :: Nat.toDigits 10 sequence) =
      (Nat.toDigits 10 sequence).reverse := by
  have dashFree : ∀ character ∈ (Nat.toDigits 10 sequence).reverse,
      decide (character ≠ '-') = true := by
    intro character member
    have digit := Nat.isDigit_of_mem_toDigits (by decide) (by decide)
      (List.mem_reverse.mp member)
    rw [decide_eq_true_eq]
    intro same
    subst same
    contradiction
  rw [lastDigits, List.reverse_append, List.reverse_cons, List.append_assoc,
    List.takeWhile_append_of_pos dashFree]
  simp

theorem sequence_of_temporaryName {publisher : Publisher}
    {process first second : Nat} {name other : List Char}
    (same : publisher.temporaryName process first name =
      publisher.temporaryName process second other) : first = second := by
  have digits := congrArg lastDigits same
  simp only [temporaryName, ← List.cons_append, lastDigits_append,
    List.reverse_inj] at digits
  have value := congrArg (Nat.ofDigitChars 10 · 0) digits
  simpa [Nat.ofDigitChars_toDigits] using value

end Publisher

/-! One call. Its faults are the steps that fail although they could have
succeeded, with the text that is reported. -/

abbrev Files := FileSystem Entry

def fileExists : String := "File exists (os error 17)"

def notFound : String := "No such file or directory (os error 2)"

/-- `write` fails after some of the bytes, `inspect` makes the existence test
say no. -/
structure Faults where
  inspect : Bool
  allocate : Option (Part × String)
  create : Option String
  write : Option (Nat × String)
  sync : Option String
  link : Option String
  remove : Option String
  cleanup : Option String

/-- A step that is made to fail, or fails for its own reason. -/
def attempt (fault : Option String) (reason : String) (done : Option α) :
    Except String α :=
  match fault with
  | some error => .error error
  | none => okOr done reason

def writeAll (fault : Option (Nat × String)) (files : Files) (node : Nat)
    (bytes : List UInt8) : Files × Except String Unit :=
  match fault with
  | some (count, error) =>
      (files.append node (bytes.take count), .error error)
  | none => (files.append node bytes, .ok ())

/-- The temporary is complete. -/
def linkTemporary (faults : Faults) (files : Files) (temporary target : Entry) :
    Files × Except PublishError Unit :=
  match attempt faults.link fileExists (files.hardLink temporary target) with
  | .error error => (files, .error (.link error))
  | .ok files =>
      match attempt faults.remove notFound (files.removeFile temporary) with
      | .error error => (files, .error (.remove error))
      | .ok files => (files, .ok ())

/-- The temporary is open. -/
def fillTemporary (faults : Faults) (files : Files) (node : Nat)
    (temporary target : Entry) (bytes : List UInt8) :
    Files × Except PublishError Unit :=
  match writeAll faults.write files node bytes with
  | (files, .error error) => (files, .error (.write error))
  | (files, .ok _) =>
      match faults.sync with
      | some error => (files, .error (.write error))
      | none => linkTemporary faults files temporary target

def assemble (faults : Faults) (files : Files) (temporary target : Entry)
    (bytes : List UInt8) : Files × Except PublishError Unit :=
  match attempt faults.create fileExists (files.createNew temporary) with
  | .error error => (files, .error (.create error))
  | .ok (files, node) =>
      fillTemporary faults files node temporary target bytes

def cleanUp (faults : Faults) (files : Files) (temporary : Entry) : Files :=
  match attempt faults.cleanup notFound (files.removeFile temporary) with
  | .error _ => files
  | .ok files => files

/-- The temporary is removed on every failure, whoever made it. -/
def finish (faults : Faults) (temporary : Entry) :
    Files × Except PublishError Unit → Files × Except PublishError Unit
  | (files, .ok _) => (files, .ok ())
  | (files, .error error) => (cleanUp faults files temporary, .error error)

/-- `path.exists()`. A path without a file name leads to a directory. -/
def pathExists (files : Files) (destination : Destination) : Bool :=
  match destination.entry with
  | some target => (files.entries target).isSome
  | none => true

namespace Publisher

/-- Why the destination is refused before anything is done for it. -/
def refuses (publisher : Publisher) (files : Files) (inspectFails : Bool)
    (destination : Destination) : Option String :=
  match publisher.refusal with
  | none => none
  | some refusal =>
      if ¬ inspectFails ∧ pathExists files destination then
        some (refusal destination.shown)
      else none

theorem refuses_of_missing {publisher : Publisher} {files : Files}
    {destination : Destination} (missing : pathExists files destination = false)
    (inspectFails : Bool) :
    publisher.refuses files inspectFails destination = none := by
  unfold refuses
  cases publisher.refusal <;> simp [missing]

theorem refuses_uninspected (publisher : Publisher) (files : Files)
    (destination : Destination) :
    publisher.refuses files true destination = none := by
  unfold refuses
  cases publisher.refusal <;> simp

/-- From the sequence number on: the files and the counter that a call leaves,
and its result. -/
def publishTo (publisher : Publisher) (process : Nat) (faults : Faults)
    (files : Files) (counter : Nat) (target : Entry) (bytes : List UInt8) :
    Files × Nat × Except PublishError Unit :=
  match Usize.checkedAdd counter 1 with
  | none => (files, counter, .error .exhausted)
  | some next =>
      match faults.allocate with
      | some (part, error) => (files, next, .error (.allocation part error))
      | none =>
          let temporary := publisher.temporary process counter target
          let (files, result) := finish faults temporary
            (assemble faults files temporary target bytes)
          (files, next, result)

def publish (publisher : Publisher) (process : Nat) (faults : Faults)
    (files : Files) (counter : Nat) (destination : Destination)
    (bytes : List UInt8) : Files × Nat × Except PublishError Unit :=
  match publisher.refuses files faults.inspect destination with
  | some message => (files, counter, .error (.refused message))
  | none =>
      match destination.entry with
      | none => (files, counter, .error .noFileName)
      | some target =>
          publisher.publishTo process faults files counter target bytes

end Publisher

/-! What a call does to the files it finds. -/

theorem attempt_eq_ok {fault : Option String} {reason : String}
    {done : Option α} {value : α}
    (attempted : attempt fault reason done = .ok value) : done = some value := by
  cases fault with
  | some error => contradiction
  | none => exact okOr_eq_ok.mp attempted

theorem writeAll_keeps (fault : Option (Nat × String)) {files : Files}
    {node : Nat} {entry : Entry} (elsewhere : files.entries entry ≠ some node)
    (bytes : List UInt8) :
    files.Keeps (writeAll fault files node bytes).1 entry := by
  cases fault with
  | none => exact .append elsewhere bytes
  | some failure => exact .append elsewhere (bytes.take failure.1)

theorem linkTemporary_keeps (faults : Faults) (files : Files)
    {temporary entry : Entry} (target : Entry) (different : entry ≠ temporary) :
    files.Keeps (linkTemporary faults files temporary target).1 entry := by
  unfold linkTemporary
  cases linked : attempt faults.link fileExists
      (files.hardLink temporary target) with
  | error error => exact .refl files entry
  | ok published =>
      obtain ⟨free, node, known, _, rfl⟩ :=
        FileSystem.hardLink_eq_some (attempt_eq_ok linked)
      have kept := FileSystem.Keeps.link free known entry
      dsimp only
      cases removed : attempt faults.remove notFound
          ((files.link target node known).removeFile temporary) with
      | error error => exact kept
      | ok cleared =>
          obtain ⟨_, rfl⟩ :=
            FileSystem.removeFile_eq_some.mp (attempt_eq_ok removed)
          exact kept.trans (.remove different)

theorem fillTemporary_keeps (faults : Faults) {files : Files} {node : Nat}
    {temporary entry : Entry} (target : Entry) (bytes : List UInt8)
    (different : entry ≠ temporary)
    (elsewhere : files.entries entry ≠ some node) :
    files.Keeps (fillTemporary faults files node temporary target bytes).1
      entry := by
  have written := writeAll_keeps faults.write elsewhere bytes
  unfold fillTemporary
  cases outcome : writeAll faults.write files node bytes with
  | mk held result =>
      rw [outcome] at written
      cases result with
      | error error => exact written
      | ok _ =>
          dsimp only
          cases faults.sync with
          | some error => exact written
          | none =>
              exact written.trans
                (linkTemporary_keeps faults held target different)

/-- Only the temporary is ever taken away. -/
theorem assemble_keeps (faults : Faults) (files : Files)
    {temporary entry : Entry} (target : Entry) (bytes : List UInt8)
    (different : entry ≠ temporary) :
    files.Keeps (assemble faults files temporary target bytes).1 entry := by
  unfold assemble
  cases created : attempt faults.create fileExists
      (files.createNew temporary) with
  | error error => exact .refl files entry
  | ok made =>
      obtain ⟨held, node⟩ := made
      obtain ⟨free, rfl, rfl⟩ :=
        FileSystem.createNew_eq_some.mp (attempt_eq_ok created)
      have kept := FileSystem.Keeps.create free entry
      exact kept.trans (fillTemporary_keeps faults target bytes different
        (files.create_elsewhere different))

theorem cleanUp_keeps (faults : Faults) (files : Files) {temporary entry : Entry}
    (different : entry ≠ temporary) :
    files.Keeps (cleanUp faults files temporary) entry := by
  unfold cleanUp
  cases removed : attempt faults.cleanup notFound
      (files.removeFile temporary) with
  | error error => exact .refl files entry
  | ok cleared =>
      obtain ⟨_, rfl⟩ := FileSystem.removeFile_eq_some.mp (attempt_eq_ok removed)
      exact .remove different

theorem finish_keeps (faults : Faults) {temporary entry : Entry}
    (different : entry ≠ temporary) (outcome : Files × Except PublishError Unit) :
    outcome.1.Keeps (finish faults temporary outcome).1 entry := by
  obtain ⟨files, result⟩ := outcome
  cases result with
  | error error => exact cleanUp_keeps faults files different
  | ok _ => exact .refl files entry

/-- A temporary that is there before the call is not created again, and the
call removes it as if it had made it. -/
theorem assemble_taken (faults : Faults) {files : Files}
    {temporary : Entry} (taken : files.entries temporary ≠ none)
    (target : Entry) (bytes : List UInt8) :
    ∃ error, assemble faults files temporary target bytes =
      (files, .error (.create error)) := by
  have failed : files.createNew temporary = none := by
    cases found : files.entries temporary with
    | none => contradiction
    | some node => simp [FileSystem.createNew, found]
  unfold assemble
  rw [failed]
  cases faults.create with
  | some error => exact ⟨error, rfl⟩
  | none => exact ⟨fileExists, rfl⟩

theorem cleanUp_removes {faults : Faults} (works : faults.cleanup = none)
    (files : Files) (temporary : Entry) :
    (cleanUp faults files temporary).entries temporary = none := by
  cases removed : files.removeFile temporary with
  | none =>
      simp [cleanUp, attempt, works, removed,
        FileSystem.removeFile_eq_none.mp removed]
  | some cleared =>
      obtain ⟨_, rfl⟩ := FileSystem.removeFile_eq_some.mp removed
      simp [cleanUp, attempt, works, removed]

theorem cleanUp_fails {faults : Faults} {error : String}
    (fails : faults.cleanup = some error) (files : Files) (temporary : Entry) :
    cleanUp faults files temporary = files := by
  simp [cleanUp, attempt, fails]

/-- Every entry there was is there still, with its content. -/
def Preserves (before after : Files) : Prop :=
  ∀ entry content, before.read entry = some content →
    after.read entry = some content

namespace Publisher

/-- The call returns before it comes to its temporary. -/
def EndsEarly (publisher : Publisher) (faults : Faults) (files : Files)
    (counter : Nat) (destination : Destination) : Prop :=
  (publisher.refuses files faults.inspect destination).isSome ∨
  destination.name = none ∨ Usize.limit ≤ counter + 1 ∨
  faults.allocate.isSome

theorem publish_keeps (publisher : Publisher) (process : Nat)
    (faults : Faults) (files : Files) (counter : Nat)
    (destination : Destination) (bytes : List UInt8) {entry : Entry}
    (different : ∀ target ∈ destination.entry,
      entry ≠ publisher.temporary process counter target) :
    files.Keeps (publisher.publish process faults files counter destination
      bytes).1 entry := by
  unfold publish
  cases publisher.refuses files faults.inspect destination with
  | some message => exact .refl files entry
  | none =>
      cases named : destination.entry with
      | none => exact .refl files entry
      | some target =>
          have other := different target (by rw [named]; rfl)
          dsimp only
          unfold publishTo
          cases Usize.checkedAdd counter 1 with
          | none => exact .refl files entry
          | some next =>
              cases faults.allocate with
              | some failure => exact .refl files entry
              | none =>
                  exact (assemble_keeps faults files target bytes other).trans
                    (finish_keeps faults other _)

/-- A call that reaches the creation of a temporary that is there already leaves
what the cleanup leaves. -/
theorem publish_taken (publisher : Publisher) (process : Nat)
    {faults : Faults} {files : Files} {counter : Nat}
    {destination : Destination} (bytes : List UInt8) {target : Entry}
    (admitted : publisher.refuses files faults.inspect destination = none)
    (named : destination.entry = some target)
    (room : counter + 1 < Usize.limit) (allocated : faults.allocate = none)
    (taken : files.entries (publisher.temporary process counter target) ≠
      none) :
    (publisher.publish process faults files counter destination bytes).1 =
      cleanUp faults files (publisher.temporary process counter target) := by
  obtain ⟨error, failed⟩ := assemble_taken faults taken target bytes
  simp [publish, publishTo, admitted, named, Usize.checkedAdd, room, allocated,
    failed, finish]

theorem publish_early {publisher : Publisher} (process : Nat)
    {faults : Faults} {files : Files} {counter : Nat}
    {destination : Destination} (bytes : List UInt8)
    (early : publisher.EndsEarly faults files counter destination) :
    (publisher.publish process faults files counter destination bytes).1 =
      files := by
  unfold publish
  cases refused : publisher.refuses files faults.inspect destination with
  | some message => rfl
  | none =>
      cases named : destination.entry with
      | none => rfl
      | some target =>
          dsimp only
          unfold publishTo
          cases room : Usize.checkedAdd counter 1 with
          | none => rfl
          | some next =>
              cases allocated : faults.allocate with
              | some failure => rfl
              | none =>
                  obtain ⟨name, present, _⟩ := Option.map_eq_some_iff.mp named
                  have fits := (Usize.checkedAdd_eq_some.mp room).2
                  simp [EndsEarly, refused, present, allocated] at early
                  omega

/-- What was there before the call is there after it, unless a file has the name
of the temporary and the call gets as far as removing it. -/
theorem publish_preserves_iff (publisher : Publisher) (process : Nat)
    (faults : Faults) (files : Files) (counter : Nat)
    (destination : Destination) (bytes : List UInt8) :
    Preserves files (publisher.publish process faults files counter destination
      bytes).1 ↔
      publisher.EndsEarly faults files counter destination ∨
      (∀ target ∈ destination.entry,
        files.entries (publisher.temporary process counter target) = none) ∨
      faults.cleanup.isSome := by
  by_cases early : publisher.EndsEarly faults files counter destination
  · rw [publish_early process bytes early]
    exact ⟨fun _ => .inl early, fun _ _ _ found => found⟩
  · have late := early
    simp only [EndsEarly, not_or, Option.not_isSome_iff_eq_none, not_le] at late
    obtain ⟨admitted, named, room, allocated⟩ := late
    obtain ⟨name, present⟩ := Option.ne_none_iff_exists'.mp named
    have target : destination.entry = some ⟨destination.directory, name⟩ := by
      simp [Destination.entry, present]
    simp only [early, false_or, target, Option.mem_some_iff, forall_eq']
    by_cases free : files.entries (publisher.temporary process counter
        ⟨destination.directory, name⟩) = none
    · refine iff_of_true ?_ (.inl free)
      intro entry content found
      refine (publish_keeps publisher process faults files counter destination
        bytes ?_).read found
      rintro _ member rfl
      rw [target, Option.mem_some_iff] at member
      subst member
      simp [FileSystem.read, free] at found
    · rw [publish_taken publisher process bytes admitted target room allocated
        free]
      simp only [free, false_or]
      cases fails : faults.cleanup with
      | some error =>
          rw [cleanUp_fails fails]
          exact iff_of_true (fun _ _ found => found) rfl
      | none =>
          refine iff_of_false ?_ (by simp)
          intro preserved
          obtain ⟨node, taken⟩ := Option.ne_none_iff_exists'.mp free
          have lost := preserved (publisher.temporary process counter
            ⟨destination.directory, name⟩) (files.contents node)
            (by simp [FileSystem.read, taken])
          simp [FileSystem.read, cleanUp_removes fails] at lost

def noFaults : Faults := ⟨false, none, none, none, none, none, none, none⟩

def outBin : Entry := ⟨0, "out.bin".toList⟩

/-- What an earlier process with the number 7 has left behind. -/
def leftover : Files :=
  (FileSystem.empty.create (xen.temporary 7 0 outBin)).append 0 [9]

/-- The first publication of a process with the same number. -/
theorem publish_destroys_leftover :
    leftover.read (xen.temporary 7 0 outBin) = some [9] ∧
    (xen.publish 7 noFaults leftover 0 ⟨"out.bin", 0, some outBin.name⟩
      [1]).1.read (xen.temporary 7 0 outBin) = none ∧
    ¬ Preserves leftover (xen.publish 7 noFaults leftover 0
      ⟨"out.bin", 0, some outBin.name⟩ [1]).1 := by
  have found : leftover.read (xen.temporary 7 0 outBin) = some [9] := rfl
  have absent : leftover.entries outBin = none :=
    FileSystem.create_other _ (temporary_ne xen 7 0 outBin).symm
  have admitted : xen.refuses leftover noFaults.inspect
      ⟨"out.bin", 0, some outBin.name⟩ = none := by
    have missing : pathExists leftover
        ⟨"out.bin", 0, some outBin.name⟩ = false := by
      change (leftover.entries outBin).isSome = false
      rw [absent]
      rfl
    exact refuses_of_missing missing _
  have lost : (xen.publish 7 noFaults leftover 0
      ⟨"out.bin", 0, some outBin.name⟩ [1]).1.read
        (xen.temporary 7 0 outBin) = none := by
    have taken : leftover.entries (xen.temporary 7 0 outBin) ≠ none :=
      Option.some_ne_none 0
    rw [publish_taken xen 7 [1] admitted rfl (by decide) rfl taken]
    exact congrArg (Option.map _) (cleanUp_removes rfl leftover _)
  refine ⟨found, lost, ?_⟩
  intro preserved
  rw [preserved _ _ found] at lost
  contradiction

end Publisher

end LibVmi.Acquisition
