import LibVmi.Acquisition.Publish
import LibVmi.Data.Runs

namespace LibVmi.Acquisition

open Data

/-! Any number of calls of one publisher in one process. What other calls see of
a call are its accesses to the counter and to the files, one at a time. -/

structure Job where
  target : Entry
  bytes : List UInt8
  deriving DecidableEq, Repr

/-- Where a call stands that has drawn its sequence number. `node` is the file
it has created. -/
inductive Stage where
  | allocate
  | create
  | write (node : Nat) (remaining : List UInt8)
  | sync (node : Nat)
  | link (node : Nat)
  | unlink (node : Nat)
  | cleanup (error : PublishError)
  | finished (result : Except PublishError Unit)
  deriving DecidableEq

inductive Phase where
  | idle
  | check (destination : Destination) (bytes : List UInt8)
  | load (job : Job)
  | exchange (job : Job) (current : Nat)
  | running (job : Job) (sequence : Nat) (stage : Stage)
  | rejected (error : PublishError)
  deriving DecidableEq

/-- `fail` makes the next step of a call fail, `failAllocation` and `failRemoval`
where there is more to say of it. -/
inductive Action where
  | publish (id : Nat) (destination : Destination) (bytes : List UInt8)
  | advance (id : Nat)
  | write (id count : Nat)
  | fail (id : Nat) (error : String)
  | failAllocation (id : Nat) (part : Part) (error : String)
  | failRemoval (id : Nat) (error : String)

def Action.RemovalFails : Action → Prop
  | .failRemoval _ _ => True
  | _ => False

structure Publications where
  files : Files
  counter : Nat
  calls : Nat → Phase

namespace Publications

def start (files : Files) (counter : Nat) : Publications :=
  ⟨files, counter, fun _ => .idle⟩

def setPhase (state : Publications) (id : Nat) (phase : Phase) : Publications :=
  { state with calls := Function.update state.calls id phase }

variable (publisher : Publisher) (process : Nat)

/-- After the existence test. -/
def accept (destination : Destination) (bytes : List UInt8) : Phase :=
  match destination.entry with
  | none => .rejected .noFileName
  | some target => .load ⟨target, bytes⟩

def exchange (state : Publications) (id : Nat) (job : Job) (current : Nat)
    (spurious : Bool) : Publications :=
  match compareExchange state.counter current spurious with
  | .exhausted => state.setPhase id (.rejected .exhausted)
  | .taken next => { state with counter := next }.setPhase id
      (.running job current .allocate)
  | .observed current => state.setPhase id (.exchange job current)

def advanceStage (state : Publications) (id : Nat) (job : Job) (sequence : Nat) :
    Stage → Option Publications
  | .allocate => some (state.setPhase id (.running job sequence .create))
  | .create =>
      match state.files.createNew
          (publisher.temporary process sequence job.target) with
      | none => some (state.setPhase id
          (.running job sequence (.cleanup (.create fileExists))))
      | some (files, node) => some ({ state with files }.setPhase id
          (.running job sequence (.write node job.bytes)))
  | .write node [] =>
      some (state.setPhase id (.running job sequence (.sync node)))
  | .write _ _ => none
  | .sync node => some (state.setPhase id (.running job sequence (.link node)))
  | .link node =>
      match state.files.hardLink
          (publisher.temporary process sequence job.target) job.target with
      | none => some (state.setPhase id
          (.running job sequence (.cleanup (.link fileExists))))
      | some files => some ({ state with files }.setPhase id
          (.running job sequence (.unlink node)))
  | .unlink _ =>
      match state.files.removeFile
          (publisher.temporary process sequence job.target) with
      | none => some (state.setPhase id
          (.running job sequence (.cleanup (.remove notFound))))
      | some files => some ({ state with files }.setPhase id
          (.running job sequence (.finished (.ok ()))))
  | .cleanup error =>
      match state.files.removeFile
          (publisher.temporary process sequence job.target) with
      | none => some (state.setPhase id
          (.running job sequence (.finished (.error error))))
      | some files => some ({ state with files }.setPhase id
          (.running job sequence (.finished (.error error))))
  | .finished _ => none

def advance (state : Publications) (id : Nat) : Option Publications :=
  match state.calls id with
  | .idle | .rejected _ => none
  | .check destination bytes =>
      match publisher.refuses state.files false destination with
      | some message => some (state.setPhase id
          (.rejected (.refused message)))
      | none => some (state.setPhase id (accept destination bytes))
  | .load job => some (state.setPhase id (.exchange job state.counter))
  | .exchange job current => some (state.exchange id job current false)
  | .running job sequence stage =>
      advanceStage publisher process state id job sequence stage

/-- A step that fails changes no file. -/
def failStage (error : String) : Stage → Option Stage
  | .create => some (.cleanup (.create error))
  | .write _ _ | .sync _ => some (.cleanup (.write error))
  | .link _ => some (.cleanup (.link error))
  | _ => none

def failRemoval (error : String) : Stage → Option Stage
  | .unlink _ => some (.cleanup (.remove error))
  | .cleanup earlier => some (.finished (.error earlier))
  | _ => none

def step (state : Publications) : Action → Option Publications
  | .publish id destination bytes =>
      match state.calls id with
      | .idle => some (state.setPhase id (.check destination bytes))
      | _ => none
  | .advance id => advance publisher process state id
  | .write id count =>
      match state.calls id with
      | .running job sequence (.write node remaining) =>
          some ({ state with
              files := state.files.append node (remaining.take count) }.setPhase
            id (.running job sequence (.write node (remaining.drop count))))
      | _ => none
  | .fail id error =>
      match state.calls id with
      | .check destination bytes =>
          some (state.setPhase id (accept destination bytes))
      | .exchange job current => some (state.exchange id job current true)
      | .running job sequence stage =>
          (failStage error stage).map fun failed =>
            state.setPhase id (.running job sequence failed)
      | _ => none
  | .failAllocation id part error =>
      match state.calls id with
      | .running job sequence .allocate => some (state.setPhase id
          (.running job sequence (.finished (.error (.allocation part error)))))
      | _ => none
  | .failRemoval id error =>
      match state.calls id with
      | .running job sequence stage =>
          (failRemoval error stage).map fun failed =>
            state.setPhase id (.running job sequence failed)
      | _ => none

theorem setPhase_calls_same (state : Publications) (id : Nat)
    (phase : Phase) : (state.setPhase id phase).calls id = phase := by
  simp [setPhase]

theorem setPhase_calls_other (state : Publications) {id other : Nat}
    (phase : Phase) (different : other ≠ id) :
    (state.setPhase id phase).calls other = state.calls other := by
  simp [setPhase, different]

/-- The state in which the call stands at `stage` and has left `files`. -/
def standing (state : Publications) (id : Nat) (job : Job) (sequence : Nat)
    (files : Files) (stage : Stage) : Publications :=
  { state with files }.setPhase id (.running job sequence stage)

section Standing

variable (state : Publications) (id : Nat) (job : Job) (sequence : Nat)
  (files : Files)

@[simp] theorem standing_calls (stage : Stage) :
    (standing state id job sequence files stage).calls id =
      .running job sequence stage :=
  setPhase_calls_same _ _ _

theorem standing_calls_other {id other : Nat} (stage : Stage)
    (different : other ≠ id) :
    (standing state id job sequence files stage).calls other =
      state.calls other :=
  setPhase_calls_other _ _ different

@[simp] theorem standing_files (stage : Stage) :
    (standing state id job sequence files stage).files = files := rfl

@[simp] theorem standing_setPhase (stage later : Stage) :
    (standing state id job sequence files stage).setPhase id
        (.running job sequence later) =
      standing state id job sequence files later := by
  simp [standing, setPhase]

@[simp] theorem standing_access (stage later : Stage) (after : Files) :
    ({ standing state id job sequence files stage with
        files := after }).setPhase id (.running job sequence later) =
      standing state id job sequence after later := by
  simp [standing, setPhase]

end Standing

/-! Everything a step can do, as long as no removal of an existing file
fails. -/

/-- The moves of a running call that leave the files alone. -/
inductive Passes : Stage → Stage → Prop
  | allocated : Passes .allocate .create
  | unallocated (error : PublishError) :
      Passes .allocate (.finished (.error error))
  | uncreated (error : PublishError) : Passes .create (.cleanup error)
  | written (node : Nat) : Passes (.write node []) (.sync node)
  | unwritten (node : Nat) (remaining : List UInt8) (error : PublishError) :
      Passes (.write node remaining) (.cleanup error)
  | synced (node : Nat) : Passes (.sync node) (.link node)
  | unsynced (node : Nat) (error : PublishError) :
      Passes (.sync node) (.cleanup error)
  | unlinked (node : Nat) (error : PublishError) :
      Passes (.link node) (.cleanup error)

/-- The moves of a running call that are accesses to the files. -/
inductive Accesses (files : Files) (temporary : Entry) (job : Job) :
    Stage → Stage → Files → Prop
  | created (free : files.entries temporary = none) :
      Accesses files temporary job .create (.write files.next job.bytes)
        (files.create temporary)
  | wrote (node count : Nat) (remaining : List UInt8) :
      Accesses files temporary job (.write node remaining)
        (.write node (remaining.drop count))
        (files.append node (remaining.take count))
  | linked (node source : Nat) (known : source < files.next)
      (free : files.entries job.target = none)
      (found : files.entries temporary = some source) :
      Accesses files temporary job (.link node) (.unlink node)
        (files.link job.target source known)
  | removed (node : Nat) (found : files.entries temporary ≠ none) :
      Accesses files temporary job (.unlink node) (.finished (.ok ()))
        (files.remove temporary)
  | missed (node : Nat) (missing : files.entries temporary = none) :
      Accesses files temporary job (.unlink node)
        (.cleanup (.remove notFound)) files
  | cleaned (error : PublishError) (found : files.entries temporary ≠ none) :
      Accesses files temporary job (.cleanup error) (.finished (.error error))
        (files.remove temporary)
  | absent (error : PublishError) (missing : files.entries temporary = none) :
      Accesses files temporary job (.cleanup error) (.finished (.error error))
        files

inductive Effect (state : Publications) : Action → Publications → Prop
  | begun (id : Nat) (destination : Destination) (bytes : List UInt8)
      (before : state.calls id = .idle) :
      Effect state (.publish id destination bytes)
        (state.setPhase id (.check destination bytes))
  | rejected {action : Action} (id : Nat) (error : PublishError)
      (before : (∃ destination bytes,
          state.calls id = .check destination bytes) ∨
        ∃ job current, state.calls id = .exchange job current) :
      Effect state action (state.setPhase id (.rejected error))
  | accepted {action : Action} (id : Nat) (destination : Destination) (target : Entry)
      (bytes : List UInt8) (before : state.calls id = .check destination bytes)
      (named : destination.entry = some target) :
      Effect state action (state.setPhase id (.load ⟨target, bytes⟩))
  | observed {action : Action} (id : Nat) (job : Job) (current : Nat)
      (before : state.calls id = .load job ∨
        ∃ earlier, state.calls id = .exchange job earlier) :
      Effect state action (state.setPhase id (.exchange job current))
  | drawn {action : Action} (id : Nat) (job : Job)
      (before : state.calls id = .exchange job state.counter) :
      Effect state action ({ state with counter := state.counter + 1 }.setPhase id
        (.running job state.counter .allocate))
  | passed {action : Action} (id : Nat) (job : Job) (sequence : Nat) (stage later : Stage)
      (before : state.calls id = .running job sequence stage)
      (passes : Passes stage later) :
      Effect state action (state.setPhase id (.running job sequence later))
  | accessed {action : Action} (id : Nat) (job : Job) (sequence : Nat) (stage later : Stage)
      (files : Files) (before : state.calls id = .running job sequence stage)
      (accesses : Accesses state.files
        (publisher.temporary process sequence job.target) job stage later
        files) :
      Effect state action ({ state with files }.setPhase id
        (.running job sequence later))

variable {publisher process}

theorem accept_effect {action : Action} {state : Publications} {id : Nat}
    {destination : Destination} {bytes : List UInt8}
    (before : state.calls id = .check destination bytes) :
    Effect publisher process state action
      (state.setPhase id (accept destination bytes)) := by
  unfold accept
  cases named : destination.entry with
  | none => exact .rejected id _ (.inl ⟨destination, bytes, before⟩)
  | some target => exact .accepted id destination target bytes before named

theorem exchange_effect {action : Action} {state : Publications} {id : Nat} {job : Job}
    {current : Nat} (spurious : Bool)
    (before : state.calls id = .exchange job current) :
    Effect publisher process state action
      (state.exchange id job current spurious) := by
  unfold exchange
  cases turn : compareExchange state.counter current spurious with
  | exhausted => exact .rejected id _ (.inr ⟨job, current, before⟩)
  | taken next =>
      obtain ⟨rfl, room⟩ := compareExchange_taken turn
      obtain ⟨rfl, _⟩ := Usize.checkedAdd_eq_some.mp room
      exact .drawn id job before
  | observed current =>
      exact .observed id job _ (.inr ⟨_, before⟩)

theorem advanceStage_effect {action : Action} {state next : Publications} {id : Nat} {job : Job}
    {sequence : Nat} {stage : Stage}
    (before : state.calls id = .running job sequence stage)
    (advanced : advanceStage publisher process state id job sequence stage =
      some next) : Effect publisher process state action next := by
  have passed {later : Stage} (passes : Passes stage later) :
      Effect publisher process state action
        (state.setPhase id (.running job sequence later)) :=
    .passed id job sequence stage later before passes
  have accessed {later : Stage} {files : Files} (accesses : Accesses state.files
        (publisher.temporary process sequence job.target) job stage later
        files) :
      Effect publisher process state action ({ state with files }.setPhase id
        (.running job sequence later)) :=
    .accessed id job sequence stage later files before accesses
  cases stage with
  | allocate => exact Option.some.inj advanced ▸ passed .allocated
  | create =>
      simp only [advanceStage] at advanced
      split at advanced
      · exact Option.some.inj advanced ▸ passed (.uncreated _)
      · rename_i files node created
        obtain ⟨free, rfl, rfl⟩ := FileSystem.createNew_eq_some.mp created
        exact Option.some.inj advanced ▸ accessed (.created free)
  | write node remaining =>
      cases remaining with
      | nil => exact Option.some.inj advanced ▸ passed (.written node)
      | cons first rest => contradiction
  | sync node => exact Option.some.inj advanced ▸ passed (.synced node)
  | link node =>
      simp only [advanceStage] at advanced
      split at advanced
      · exact Option.some.inj advanced ▸ passed (.unlinked node _)
      · rename_i files linked
        obtain ⟨free, source, known, found, rfl⟩ :=
          FileSystem.hardLink_eq_some linked
        exact Option.some.inj advanced ▸
          accessed (.linked node source known free found)
  | unlink node =>
      simp only [advanceStage] at advanced
      split at advanced
      · rename_i missing
        exact Option.some.inj advanced ▸
          accessed (.missed node (FileSystem.removeFile_eq_none.mp missing))
      · rename_i files removed
        obtain ⟨found, rfl⟩ := FileSystem.removeFile_eq_some.mp removed
        exact Option.some.inj advanced ▸ accessed (.removed node found)
  | cleanup error =>
      simp only [advanceStage] at advanced
      split at advanced
      · rename_i missing
        exact Option.some.inj advanced ▸
          accessed (.absent error (FileSystem.removeFile_eq_none.mp missing))
      · rename_i files removed
        obtain ⟨found, rfl⟩ := FileSystem.removeFile_eq_some.mp removed
        exact Option.some.inj advanced ▸ accessed (.cleaned error found)
  | finished result => contradiction

theorem failStage_passes {error : String} {stage failed : Stage}
    (fails : failStage error stage = some failed) : Passes stage failed := by
  cases stage <;> simp only [failStage, Option.some.injEq, reduceCtorEq] at fails
  all_goals subst fails
  · exact .uncreated _
  · exact .unwritten _ _ _
  · exact .unsynced _ _
  · exact .unlinked _ _

theorem advance_effect {action : Action} {state next : Publications} {id : Nat}
    (advanced : advance publisher process state id = some next) :
    Effect publisher process state action next := by
  unfold advance at advanced
  split at advanced
  · contradiction
  · contradiction
  · rename_i destination bytes before
    split at advanced
    · exact Option.some.inj advanced ▸
        .rejected id _ (.inl ⟨destination, bytes, before⟩)
    · exact Option.some.inj advanced ▸ accept_effect before
  · rename_i job before
    exact Option.some.inj advanced ▸ .observed id job _ (.inl before)
  · rename_i job current before
    exact Option.some.inj advanced ▸ exchange_effect false before
  · rename_i job sequence stage before
    exact advanceStage_effect before advanced

theorem step_effect {state next : Publications} {action : Action}
    (works : ¬ action.RemovalFails)
    (stepped : step publisher process state action = some next) :
    Effect publisher process state action next := by
  cases action with
  | publish id destination bytes =>
      cases before : state.calls id <;>
        simp only [step, before, Option.some.injEq, reduceCtorEq] at stepped
      exact stepped ▸ .begun id destination bytes before
  | advance id => exact advance_effect stepped
  | write id count =>
      simp only [step] at stepped
      split at stepped
      · rename_i job sequence node remaining before
        exact Option.some.inj stepped ▸
          .accessed id job sequence _ _ _ before (.wrote node count remaining)
      · contradiction
  | fail id error =>
      simp only [step] at stepped
      split at stepped
      · rename_i destination bytes before
        exact Option.some.inj stepped ▸ accept_effect before
      · rename_i job current before
        exact Option.some.inj stepped ▸ exchange_effect true before
      · rename_i job sequence stage before
        obtain ⟨failed, fails, rfl⟩ := Option.map_eq_some_iff.mp stepped
        exact .passed id job sequence stage failed before
          (failStage_passes fails)
      · contradiction
  | failAllocation id part error =>
      simp only [step] at stepped
      split at stepped
      · rename_i job sequence before
        exact Option.some.inj stepped ▸
          .passed id job sequence _ _ before (.unallocated _)
      · contradiction
  | failRemoval id error => exact (works trivial).elim

end Publications

/-! What a running call knows of its temporary and of its destination. -/

def Stage.linked : Stage → Bool
  | .unlink _ | .finished (.ok _) => true
  | _ => false

def StageSound (files : Files) (temporary : Entry) (job : Job) : Stage → Prop
  | .allocate | .create => files.entries temporary = none
  | .write node remaining =>
      files.entries temporary = some node ∧
        files.contents node ++ remaining = job.bytes
  | .sync node | .link node =>
      files.entries temporary = some node ∧ files.contents node = job.bytes
  | .unlink node =>
      files.entries temporary = some node ∧
        files.entries job.target = some node ∧
        files.contents node = job.bytes
  | .cleanup _ => True
  | .finished (.ok _) =>
      files.entries temporary = none ∧
        ∃ node, files.entries job.target = some node ∧
          files.contents node = job.bytes
  | .finished (.error _) => files.entries temporary = none

/-- What a step of a call does to the files: it gives and takes its temporary,
and it may give its destination. -/
structure ActsFor (temporary target : Entry) (before after : Files) : Prop where
  keeps : ∀ entry, entry ≠ temporary → before.Keeps after entry
  absent : ∀ entry, entry ≠ temporary → entry ≠ target →
    before.entries entry = none → after.entries entry = none
  source : ∀ entry node, after.entries entry = some node →
    before.entries entry = some node ∨ node = before.next ∨
      before.entries temporary = some node

namespace StageSound

variable {files after : Files} {temporary : Entry} {job : Job}
  {stage later : Stage}

/-- The steps of other calls do not matter. -/
theorem transport (sound : StageSound files temporary job stage)
    (keepsTemporary : files.Keeps after temporary)
    (absent : files.entries temporary = none → after.entries temporary = none)
    (keepsTarget : files.Keeps after job.target) :
    StageSound after temporary job stage := by
  cases stage with
  | allocate | create => exact absent sound
  | write node remaining =>
      obtain ⟨found, same⟩ := keepsTemporary node sound.1
      exact ⟨found, same ▸ sound.2⟩
  | sync node | link node =>
      obtain ⟨found, same⟩ := keepsTemporary node sound.1
      exact ⟨found, same ▸ sound.2⟩
  | unlink node =>
      obtain ⟨found, same⟩ := keepsTemporary node sound.1
      exact ⟨found, (keepsTarget node sound.2.1).1, same ▸ sound.2.2⟩
  | cleanup error => trivial
  | finished result =>
      cases result with
      | error error => exact absent sound
      | ok _ =>
          obtain ⟨gone, node, found, complete⟩ := sound
          obtain ⟨still, same⟩ := keepsTarget node found
          exact ⟨absent gone, node, still, same ▸ complete⟩

theorem target_of_linked (sound : StageSound files temporary job stage)
    (linked : stage.linked = true) :
    files.read job.target = some job.bytes := by
  cases stage with
  | unlink node => simp [FileSystem.read, sound.2.1, sound.2.2]
  | finished result =>
      cases result with
      | error error => contradiction
      | ok _ =>
          obtain ⟨_, node, found, complete⟩ := sound
          simp [FileSystem.read, found, complete]
  | _ => contradiction

theorem passes (sound : StageSound files temporary job stage)
    (passes : Publications.Passes stage later) :
    StageSound files temporary job later := by
  cases passes with
  | allocated | unallocated | synced => exact sound
  | written node =>
      obtain ⟨found, complete⟩ := sound
      exact ⟨found, by simpa using complete⟩
  | uncreated | unwritten | unsynced | unlinked => trivial

theorem accesses (sound : StageSound files temporary job stage)
    (different : temporary ≠ job.target)
    (accesses : Publications.Accesses files temporary job stage later after) :
    StageSound after temporary job later := by
  cases accesses with
  | created free => exact ⟨files.create_entry temporary, by simp⟩
  | wrote node count remaining =>
      refine ⟨sound.1, ?_⟩
      rw [files.append_contents, List.append_assoc, List.take_append_drop]
      exact sound.2
  | linked node source known free found =>
      obtain rfl : node = source :=
        Option.some.inj (sound.1.symm.trans found)
      exact ⟨(files.link_other known different).trans found,
        files.link_entry job.target node known, sound.2⟩
  | removed node found =>
      exact ⟨files.remove_entry temporary, node,
        (files.remove_other different.symm).trans sound.2.1, sound.2.2⟩
  | missed node missing =>
      exact absurd (sound.1.symm.trans missing) (Option.some_ne_none node)
  | cleaned error found => exact files.remove_entry temporary
  | absent error missing => exact missing

end StageSound

theorem ActsFor.refl (temporary target : Entry) (files : Files) :
    ActsFor temporary target files files :=
  ⟨fun entry _ => .refl files entry, fun _ _ _ gone => gone,
    fun _ _ found => .inl found⟩

/-- A file that is still written has no name but the temporary. -/
def Exclusive (files : Files) (temporary : Entry) (stage : Stage) : Prop :=
  ∀ node remaining, stage = .write node remaining →
    ∀ entry, files.entries entry = some node → entry = temporary

namespace Publications.Accesses

variable {files after : Files} {temporary : Entry} {job : Job}
  {stage later : Stage}

theorem actsFor (accesses : Accesses files temporary job stage later after)
    (exclusive : Exclusive files temporary stage) :
    ActsFor temporary job.target files after := by
  cases accesses with
  | created free =>
      refine ⟨fun entry _ => .create free entry, ?_, ?_⟩
      · intro entry different _ gone
        rwa [files.create_other different]
      · intro entry node found
        by_cases same : entry = temporary
        · subst entry
          rw [files.create_entry, Option.some.injEq] at found
          exact .inr (.inl found.symm)
        · rw [files.create_other same] at found
          exact .inl found
  | wrote node count remaining =>
      refine ⟨?_, fun _ _ _ gone => gone, fun _ _ found => .inl found⟩
      intro entry different
      refine .append ?_ _
      intro found
      exact different (exclusive node remaining rfl entry found)
  | linked node source known free found =>
      refine ⟨fun entry _ => .link free known entry, ?_, ?_⟩
      · intro entry _ different gone
        rwa [files.link_other known different]
      · intro entry other reached
        by_cases same : entry = job.target
        · subst same
          rw [files.link_entry, Option.some.injEq] at reached
          exact .inr (.inr (reached ▸ found))
        · rw [files.link_other known same] at reached
          exact .inl reached
  | removed _ found | cleaned _ found =>
      refine ⟨fun entry different => .remove different, ?_, ?_⟩
      · intro entry different _ gone
        rwa [files.remove_other different]
      · intro entry node reached
        by_cases same : entry = temporary
        · subst entry
          simp at reached
        · rw [files.remove_other same] at reached
          exact .inl reached
  | missed | absent => exact .refl temporary job.target files

theorem exclusive (accesses : Accesses files temporary job stage later after)
    (before : Exclusive files temporary stage) :
    Exclusive after temporary later := by
  rintro node remaining rfl entry found
  cases accesses with
  | created free =>
      by_contra different
      rw [files.create_other different] at found
      exact Nat.lt_irrefl _ (files.bounded entry _ found)
  | wrote node count remaining => exact before node _ rfl entry found

end Publications.Accesses

namespace Phase

def sequence? : Phase → Option Nat
  | .running _ sequence _ => some sequence
  | _ => none

def target? : Phase → Option Entry
  | .check destination _ => destination.entry
  | .load job | .exchange job _ | .running job _ _ => some job.target
  | .idle | .rejected _ => none

/-- The destination that a call has linked. -/
def linked? : Phase → Option Entry
  | .running job _ stage => if stage.linked then some job.target else none
  | _ => none

end Phase

namespace Publications

variable (publisher : Publisher) (process : Nat)

def TemporaryForm (entry : Entry) : Prop :=
  ∃ sequence name, entry.name = publisher.temporaryName process sequence name

theorem temporary_form (sequence : Nat) (target : Entry) :
    TemporaryForm publisher process
      (publisher.temporary process sequence target) :=
  ⟨sequence, target.name, rfl⟩

/-- `initial` are the files before the first call. -/
structure Invariant (initial : Files) (state : Publications) : Prop where
  plain : ∀ id, ∀ target ∈ (state.calls id).target?,
    ¬ TemporaryForm publisher process target
  tickets : Tickets state.counter fun id => (state.calls id).sequence?
  sound : ∀ id job sequence stage,
    state.calls id = .running job sequence stage →
      StageSound state.files (publisher.temporary process sequence job.target)
        job stage
  exclusive : ∀ id job sequence stage,
    state.calls id = .running job sequence stage →
      Exclusive state.files (publisher.temporary process sequence job.target)
        stage
  origin : ∀ entry, state.files.entries entry ≠ none →
    initial.entries entry ≠ none ∨
    (∃ id job sequence stage, state.calls id = .running job sequence stage ∧
      entry = publisher.temporary process sequence job.target) ∨
    ∃ id, entry ∈ (state.calls id).linked?
  kept : ∀ entry, initial.Keeps state.files entry
  once : Unshared fun id => (state.calls id).linked?

variable {publisher process} {initial : Files} {state : Publications}

namespace Invariant

theorem temporary_ne (holds : Invariant publisher process initial state)
    {first second : Nat} (different : first ≠ second) {job other : Job}
    {sequence number : Nat} {stage later : Stage}
    (inFirst : state.calls first = .running job sequence stage)
    (inSecond : state.calls second = .running other number later) :
    publisher.temporary process sequence job.target ≠
      publisher.temporary process number other.target := by
  intro same
  have numbers := Publisher.sequence_of_temporaryName
    (congrArg Entry.name same)
  subst number
  apply different
  apply holds.tickets.unshared sequence
  · simp [inFirst, Phase.sequence?]
  · simp [inSecond, Phase.sequence?]

theorem target_ne (holds : Invariant publisher process initial state)
    {id : Nat} {target : Entry} (named : target ∈ (state.calls id).target?)
    (sequence : Nat) (other : Entry) :
    target ≠ publisher.temporary process sequence other := by
  intro same
  subst same
  exact holds.plain id _ named (temporary_form publisher process sequence other)

theorem running_target {id : Nat} {job : Job} {sequence : Nat} {stage : Stage}
    (running : state.calls id = .running job sequence stage) :
    job.target ∈ (state.calls id).target? := by
  rw [running]
  rfl

theorem running_of_linked {phase : Phase} {target : Entry}
    (linked : target ∈ phase.linked?) :
    ∃ job sequence stage, phase = .running job sequence stage ∧
      stage.linked = true ∧ job.target = target := by
  cases phase with
  | running job sequence stage =>
      simp only [Phase.linked?, Option.mem_def, Option.ite_none_right_eq_some,
        Option.some.injEq] at linked
      exact ⟨job, sequence, stage, rfl, linked⟩
  | _ => contradiction

/-- Calls that have drawn no number do nothing to the files. -/
theorem quiet (holds : Invariant publisher process initial state) {id : Nat}
    {phase : Phase} (before : (state.calls id).sequence? = none)
    (after : phase.sequence? = none)
    (plain : ∀ target ∈ phase.target?, ¬ TemporaryForm publisher process target) :
    Invariant publisher process initial (state.setPhase id phase) := by
  have unlinked {phase : Phase} (idle : phase.sequence? = none) :
      phase.linked? = none := by
    cases phase <;> first | rfl | contradiction
  have other {call : Nat} {job : Job} {sequence : Nat} {stage : Stage}
      (running : (state.setPhase id phase).calls call =
        .running job sequence stage) :
      state.calls call = .running job sequence stage := by
    by_cases same : call = id
    · subst call
      rw [setPhase_calls_same] at running
      rw [running] at after
      contradiction
    · rwa [setPhase_calls_other state phase same] at running
  refine ⟨?_, ?_, ?_, ?_, ?_, holds.kept, ?_⟩
  · intro call target named
    by_cases same : call = id
    · subst call
      rw [setPhase_calls_same] at named
      exact plain target named
    · rw [setPhase_calls_other state phase same] at named
      exact holds.plain call target named
  · apply holds.tickets.keep id
    · intro call different
      rw [setPhase_calls_other state phase different]
    · rw [setPhase_calls_same, after]
      simp
  · intro call job sequence stage running
    exact holds.sound call job sequence stage (other running)
  · intro call job sequence stage running
    exact holds.exclusive call job sequence stage (other running)
  · intro entry present
    rcases holds.origin entry present with first | temporary | linked
    · exact .inl first
    · obtain ⟨call, job, sequence, stage, running, same⟩ := temporary
      refine .inr (.inl ⟨call, job, sequence, stage, ?_, same⟩)
      rw [setPhase_calls_other state phase, running]
      intro same
      subst same
      rw [running] at before
      contradiction
    · obtain ⟨call, linked⟩ := linked
      refine .inr (.inr ⟨call, ?_⟩)
      rwa [setPhase_calls_other state phase]
      intro same
      subst same
      rw [unlinked before] at linked
      contradiction
  · apply holds.once.relabel id
    · intro call different
      rw [setPhase_calls_other state phase different]
    · rw [setPhase_calls_same, unlinked after]
      simp

/-- The temporary of a number that nobody has drawn is not there. -/
theorem unused (holds : Invariant publisher process initial state)
    (clean : ∀ entry, TemporaryForm publisher process entry →
      initial.entries entry = none) (target : Entry) :
    state.files.entries (publisher.temporary process state.counter target) =
      none := by
  by_contra present
  have form := temporary_form publisher process state.counter target
  rcases holds.origin _ present with first | temporary | linked
  · exact first (clean _ form)
  · obtain ⟨id, job, sequence, stage, running, same⟩ := temporary
    have drawn := Publisher.sequence_of_temporaryName
      (congrArg Entry.name same)
    have below := holds.tickets.below id sequence
      (by simp [running, Phase.sequence?])
    omega
  · obtain ⟨id, linked⟩ := linked
    obtain ⟨job, sequence, stage, running, _, same⟩ := running_of_linked linked
    exact holds.plain id job.target (running_target running) (same ▸ form)

theorem drawn (holds : Invariant publisher process initial state)
    (clean : ∀ entry, TemporaryForm publisher process entry →
      initial.entries entry = none) {id : Nat} {job : Job}
    (before : state.calls id = .exchange job state.counter) :
    Invariant publisher process initial
      ({ state with counter := state.counter + 1 }.setPhase id
        (.running job state.counter .allocate)) := by
  have other {call : Nat} (different : call ≠ id) :
      ({ state with counter := state.counter + 1 }.setPhase id
        (.running job state.counter .allocate)).calls call =
        state.calls call :=
    setPhase_calls_other _ _ different
  have same : ({ state with counter := state.counter + 1 }.setPhase id
        (.running job state.counter .allocate)).calls id =
      .running job state.counter .allocate :=
    setPhase_calls_same _ _ _
  refine ⟨?_, ?_, ?_, ?_, ?_, holds.kept, ?_⟩
  · intro call target named
    by_cases moved : call = id
    · subst call
      rw [same] at named
      exact holds.plain id target (by rw [before]; exact named)
    · rw [other moved] at named
      exact holds.plain call target named
  · apply holds.tickets.draw id
    · intro call different
      rw [other different]
    · rw [same]
      rfl
  · intro call task sequence stage running
    by_cases moved : call = id
    · subst call
      rw [same] at running
      cases running
      exact holds.unused clean job.target
    · rw [other moved] at running
      exact holds.sound call task sequence stage running
  · intro call task sequence stage running
    by_cases moved : call = id
    · subst call
      rw [same] at running
      cases running
      intro _ _ writing
      contradiction
    · rw [other moved] at running
      exact holds.exclusive call task sequence stage running
  · intro entry present
    rcases holds.origin entry present with first | temporary | linked
    · exact .inl first
    · obtain ⟨call, task, sequence, stage, running, named⟩ := temporary
      refine .inr (.inl ⟨call, task, sequence, stage, ?_, named⟩)
      rw [other, running]
      intro same
      subst same
      rw [running] at before
      contradiction
    · obtain ⟨call, linked⟩ := linked
      refine .inr (.inr ⟨call, ?_⟩)
      rwa [other]
      intro same
      subst same
      simp [before, Phase.linked?] at linked
  · apply holds.once.relabel id
    · intro call different
      rw [other different]
    · rw [same]
      simp [Phase.linked?, Stage.linked]

/-- A step of a running call that concerns its own temporary and its own
destination. -/
structure Moves (publisher : Publisher) (process : Nat) (state : Publications)
    (id : Nat) (job : Job) (sequence : Nat) (stage later : Stage)
    (files : Files) : Prop where
  before : state.calls id = .running job sequence stage
  acts : ActsFor (publisher.temporary process sequence job.target) job.target
    state.files files
  sound : StageSound files (publisher.temporary process sequence job.target)
    job later
  exclusive : Exclusive files (publisher.temporary process sequence job.target)
    later
  given : files.entries job.target ≠ none →
    state.files.entries job.target ≠ none ∨ later.linked = true
  keeps : stage.linked = true → later.linked = true
  free : later.linked = true → stage.linked = true ∨
    state.files.entries job.target = none

namespace Moves

variable {id : Nat} {job : Job} {sequence : Nat} {stage later : Stage}
  {files : Files}
  (moves : Moves publisher process state id job sequence stage later files)
include moves

/-- What is neither the temporary nor newly linked was there before. -/
theorem entries_before {entry : Entry} (present : files.entries entry ≠ none)
    (other : entry ≠ publisher.temporary process sequence job.target)
    (unlinked : ¬ (later.linked = true ∧ entry = job.target)) :
    state.files.entries entry ≠ none := by
  by_cases isTarget : entry = job.target
  · subst isTarget
    exact (moves.given present).resolve_right
      (fun linked => unlinked ⟨linked, rfl⟩)
  · intro gone
    exact present (moves.acts.absent entry other isTarget gone)

theorem linked_after {call : Nat} {entry : Entry}
    (linked : entry ∈ (state.calls call).linked?) :
    entry ∈ ((standing state id job sequence files later).calls
      call).linked? := by
  by_cases moved : call = id
  · subst call
    rw [moves.before] at linked
    simp only [standing_calls, Phase.linked?, Option.mem_def,
      Option.ite_none_right_eq_some] at linked ⊢
    exact ⟨moves.keeps linked.1, linked.2⟩
  · rwa [standing_calls_other state job sequence files later moved]

variable (holds : Invariant publisher process initial state)
include holds

/-- Another call's temporary is not the one of the call that moves. -/
theorem apart {call : Nat} (different : call ≠ id) {task : Job} {number : Nat}
    {phase : Stage} (running : state.calls call = .running task number phase) :
    publisher.temporary process number task.target ≠
      publisher.temporary process sequence job.target :=
  holds.temporary_ne different running moves.before

theorem others_sound {call : Nat} (different : call ≠ id) {task : Job}
    {number : Nat} {phase : Stage}
    (running : state.calls call = .running task number phase) :
    StageSound files (publisher.temporary process number task.target) task
      phase := by
  have other := moves.apart holds different running
  have own := holds.target_ne (running_target moves.before) number task.target
  have target := holds.target_ne (running_target running) sequence job.target
  exact (holds.sound call task number phase running).transport
    (moves.acts.keeps _ other) (moves.acts.absent _ other own.symm)
    (moves.acts.keeps _ target)

theorem others_exclusive {call : Nat} (different : call ≠ id) {task : Job}
    {number : Nat} {phase : Stage}
    (running : state.calls call = .running task number phase) :
    Exclusive files (publisher.temporary process number task.target)
      phase := by
  intro node remaining writing entry found
  subst writing
  have alone := holds.exclusive call task number _ running node remaining rfl
  have owned := (holds.sound call task number _ running).1
  rcases moves.acts.source entry node found with earlier | new | mine
  · exact alone entry earlier
  · have bound := state.files.bounded _ node owned
    omega
  · exact absurd (alone _ mine).symm (moves.apart holds different running)

theorem origin {entry : Entry} (present : files.entries entry ≠ none) :
    initial.entries entry ≠ none ∨
    (∃ call task number phase,
      (standing state id job sequence files later).calls call =
        .running task number phase ∧
      entry = publisher.temporary process number task.target) ∨
    ∃ call, entry ∈ ((standing state id job sequence files later).calls
      call).linked? := by
  by_cases isTemporary :
      entry = publisher.temporary process sequence job.target
  · exact .inr (.inl ⟨id, job, sequence, later,
      standing_calls state id job sequence files later, isTemporary⟩)
  · by_cases newlyLinked : later.linked = true ∧ entry = job.target
    · refine .inr (.inr ⟨id, ?_⟩)
      simp [Phase.linked?, newlyLinked.1, newlyLinked.2]
    · have earlier := moves.entries_before present isTemporary newlyLinked
      rcases holds.origin entry earlier with first | temporary | linked
      · exact .inl first
      · obtain ⟨call, task, number, phase, running, named⟩ := temporary
        refine .inr (.inl ⟨call, task, number, phase, ?_, named⟩)
        rw [standing_calls_other state job sequence files later, running]
        intro same
        subst same
        rw [moves.before] at running
        cases running
        exact isTemporary named
      · obtain ⟨call, linked⟩ := linked
        exact .inr (.inr ⟨call, moves.linked_after linked⟩)

theorem kept (clean : ∀ entry, TemporaryForm publisher process entry →
      initial.entries entry = none) (entry : Entry) :
    initial.Keeps files entry := by
  by_cases isTemporary :
      entry = publisher.temporary process sequence job.target
  · intro node found
    rw [isTemporary, clean _
      (temporary_form publisher process sequence job.target)] at found
    contradiction
  · exact (holds.kept entry).trans (moves.acts.keeps entry isTemporary)

/-- Nobody else has linked what the call links. -/
theorem linked_alone (linked : later.linked = true) {call : Nat}
    (already : job.target ∈ (state.calls call).linked?) : call = id := by
  rcases moves.free linked with earlier | gone
  · apply holds.once job.target call id already
    simp [moves.before, Phase.linked?, earlier]
  · obtain ⟨task, number, phase, running, reached, named⟩ :=
      running_of_linked already
    have content := (holds.sound call task number phase
      running).target_of_linked reached
    rw [named, FileSystem.read, gone] at content
    contradiction

end Moves

theorem ran (holds : Invariant publisher process initial state) {id : Nat}
    {job : Job} {sequence : Nat} {stage later : Stage} {files : Files}
    (clean : ∀ entry, TemporaryForm publisher process entry →
      initial.entries entry = none)
    (moves : Moves publisher process state id job sequence stage later files) :
    Invariant publisher process initial
      (standing state id job sequence files later) := by
  have same := standing_calls state id job sequence files later
  have other {call : Nat} (different : call ≠ id) :=
    standing_calls_other state job sequence files later different
  refine ⟨?_, ?_, ?_, ?_, fun _ present => moves.origin holds present,
    moves.kept holds clean, ?_⟩
  · intro call target named
    by_cases moved : call = id
    · subst call
      rw [same] at named
      exact holds.plain id target (by rw [moves.before]; exact named)
    · rw [other moved] at named
      exact holds.plain call target named
  · apply holds.tickets.keep id
    · intro call different
      rw [other different]
    · rw [same, moves.before]
      exact fun number member => member
  · intro call task number phase running
    by_cases moved : call = id
    · subst call
      rw [same] at running
      cases running
      exact moves.sound
    · rw [other moved] at running
      exact moves.others_sound holds moved running
  · intro call task number phase running
    by_cases moved : call = id
    · subst call
      rw [same] at running
      cases running
      exact moves.exclusive
    · rw [other moved] at running
      exact moves.others_exclusive holds moved running
  · apply holds.once.relabel id
    · intro call different
      rw [other different]
    · intro target linked call already
      rw [same] at linked
      simp only [Phase.linked?, Option.mem_def, Option.ite_none_right_eq_some,
        Option.some.injEq] at linked
      obtain ⟨linked, rfl⟩ := linked
      exact moves.linked_alone holds linked already

theorem accessed (holds : Invariant publisher process initial state)
    (clean : ∀ entry, TemporaryForm publisher process entry →
      initial.entries entry = none) {id : Nat} {job : Job} {sequence : Nat}
    {stage later : Stage} {files : Files}
    (before : state.calls id = .running job sequence stage)
    (accesses : Accesses state.files
      (publisher.temporary process sequence job.target) job stage later
      files) :
    Invariant publisher process initial ({ state with files }.setPhase id
      (.running job sequence later)) := by
  have sound := holds.sound id job sequence stage before
  have exclusive := holds.exclusive id job sequence stage before
  have different := publisher.temporary_ne process sequence job.target
  refine holds.ran clean ⟨before, accesses.actsFor exclusive,
    sound.accesses different accesses, accesses.exclusive exclusive,
    ?_, ?_, ?_⟩
  · intro present
    cases accesses with
    | created free =>
        rw [state.files.create_other different.symm] at present
        exact .inl present
    | wrote | missed | absent => exact .inl present
    | linked => exact .inr rfl
    | removed | cleaned =>
        rw [state.files.remove_other different.symm] at present
        exact .inl present
  · cases accesses with
    | missed node missing =>
        exact absurd (sound.1.symm.trans missing) (Option.some_ne_none node)
    | linked | removed => exact fun _ => rfl
    | _ => exact fun linked => linked
  · cases accesses with
    | linked node source known free found => exact fun _ => .inr free
    | removed => exact fun _ => .inl rfl
    | missed => exact fun linked => absurd linked (by decide)
    | _ => exact fun linked => .inl linked

theorem passed (holds : Invariant publisher process initial state)
    (clean : ∀ entry, TemporaryForm publisher process entry →
      initial.entries entry = none) {id : Nat} {job : Job} {sequence : Nat}
    {stage later : Stage}
    (before : state.calls id = .running job sequence stage)
    (passes : Passes stage later) :
    Invariant publisher process initial
      (state.setPhase id (.running job sequence later)) := by
  have sound := holds.sound id job sequence stage before
  refine holds.ran clean ⟨before, .refl _ job.target state.files,
    sound.passes passes, ?_, .inl, ?_, ?_⟩
  · rintro node remaining rfl
    cases passes
  · cases passes <;> exact fun linked => linked
  · cases passes <;> exact fun linked => .inl linked

end Invariant

/-! Runs. -/

/-- No destination looks like a temporary, and no removal fails. -/
def Admissible (publisher : Publisher) (process : Nat) : Action → Prop
  | .publish _ destination _ => ∀ target ∈ destination.entry,
      ¬ TemporaryForm publisher process target
  | .failRemoval _ _ => False
  | _ => True

/-- A step of any call at any moment, and with any failure but that of a
removal. -/
def Step (publisher : Publisher) (process : Nat) (state : Publications)
    (action : Action) (next : Publications) : Prop :=
  step publisher process state action = some next ∧
    Admissible publisher process action

theorem invariant_start {files : Files} (counter : Nat) :
    Invariant publisher process files (start files counter) where
  plain := by simp [start, Phase.target?]
  tickets := ⟨by simp [start, Phase.sequence?],
    by simp [Unshared, start, Phase.sequence?]⟩
  sound := by simp [start]
  exclusive := by simp [start]
  origin := fun _ present => .inl present
  kept := fun entry => .refl files entry
  once := by simp [Unshared, start, Phase.linked?]

theorem invariant_step {next : Publications} {action : Action}
    (clean : ∀ entry, TemporaryForm publisher process entry →
      initial.entries entry = none)
    (holds : Invariant publisher process initial state)
    (stepped : Step publisher process state action next) :
    Invariant publisher process initial next := by
  obtain ⟨stepped, admissible⟩ := stepped
  have works : ¬ action.RemovalFails := by
    cases action <;> first | exact not_false | contradiction
  have named (id : Nat) : ∀ target ∈ (state.calls id).target?,
      ¬ TemporaryForm publisher process target := holds.plain id
  cases step_effect works stepped with
  | begun id destination bytes before =>
      exact holds.quiet (by rw [before]; rfl) rfl admissible
  | rejected id error before =>
      refine holds.quiet ?_ rfl (by simp [Phase.target?])
      rcases before with ⟨_, _, before⟩ | ⟨_, _, before⟩ <;> rw [before] <;> rfl
  | accepted id destination target bytes before entry =>
      refine holds.quiet (by rw [before]; rfl) rfl ?_
      rintro _ ⟨⟩
      exact named id target (by rw [before]; exact entry)
  | observed id job current before =>
      rcases before with before | ⟨earlier, before⟩
      · exact holds.quiet (by rw [before]; rfl) rfl
          (fun target member => named id target (by rw [before]; exact member))
      · exact holds.quiet (by rw [before]; rfl) rfl
          (fun target member => named id target (by rw [before]; exact member))
  | drawn id job before => exact holds.drawn clean before
  | passed id job sequence stage later before passes =>
      exact holds.passed clean before passes
  | accessed id job sequence stage later files before accesses =>
      exact holds.accessed clean before accesses

/-- A call that has given its destination its name. -/
def Linked (state : Publications) (id : Nat) (job : Job) : Prop :=
  ∃ sequence stage, state.calls id = .running job sequence stage ∧
    stage.linked = true

theorem Linked.mem {id : Nat} {job : Job} (linked : state.Linked id job) :
    job.target ∈ (state.calls id).linked? := by
  obtain ⟨sequence, stage, running, reached⟩ := linked
  simp [running, Phase.linked?, reached]

/-- At every moment of every run: no two temporaries are one, no two calls have
published the same destination, a destination that the calls have made is
complete, what was there before is untouched, and a call that has returned has
left no temporary. -/
theorem publication_atomic (publisher : Publisher) (process : Nat)
    {files : Files} {counter : Nat}
    (clean : ∀ entry, TemporaryForm publisher process entry →
      files.entries entry = none)
    {actions : List Action} {state : Publications}
    (run : Run (Step publisher process) (start files counter) actions state) :
    (∀ first second job other sequence number stage later, first ≠ second →
      state.calls first = .running job sequence stage →
      state.calls second = .running other number later →
      publisher.temporary process sequence job.target ≠
        publisher.temporary process number other.target) ∧
    (∀ first second job other sequence number,
      state.calls first = .running job sequence (.finished (.ok ())) →
      state.calls second = .running other number (.finished (.ok ())) →
      job.target = other.target → first = second) ∧
    (∀ target content, files.entries target = none →
      ¬ TemporaryForm publisher process target →
      state.files.read target = some content →
      ∃ id job, state.Linked id job ∧ job.target = target ∧
        job.bytes = content ∧
        ∀ other task, state.Linked other task → task.target = target →
          other = id) ∧
    (∀ entry content, files.read entry = some content →
      state.files.read entry = some content) ∧
    (∀ id job sequence result,
      state.calls id = .running job sequence (.finished result) →
      state.files.entries (publisher.temporary process sequence job.target) =
        none) := by
  have holds := run.invariant (Invariant publisher process files)
    (fun _ => True)
    (fun _ _ _ holds _ stepped => invariant_step clean holds stepped)
    (invariant_start counter) (fun _ _ => trivial)
  refine ⟨?_, ?_, ?_, ?_, ?_⟩
  · intro first second job other sequence number stage later different inFirst
      inSecond
    exact holds.temporary_ne different inFirst inSecond
  · intro first second job other sequence number inFirst inSecond same
    have firstLinked : state.Linked first job := ⟨_, _, inFirst, rfl⟩
    have secondLinked : state.Linked second other := ⟨_, _, inSecond, rfl⟩
    exact holds.once job.target first second firstLinked.mem
      (same ▸ secondLinked.mem)
  · intro target content absent plain found
    obtain ⟨node, reached, _⟩ := Option.map_eq_some_iff.mp found
    rcases holds.origin target (by simp [reached]) with first | named | linked
    · exact (first absent).elim
    · obtain ⟨_, job, sequence, _, _, rfl⟩ := named
      exact (plain (temporary_form publisher process sequence job.target)).elim
    · obtain ⟨id, linked⟩ := linked
      obtain ⟨job, sequence, stage, running, isLinked, rfl⟩ :=
        Invariant.running_of_linked linked
      have complete := (holds.sound id job sequence stage
        running).target_of_linked isLinked
      refine ⟨id, job, ⟨sequence, stage, running, isLinked⟩, rfl,
        Option.some.inj (complete.symm.trans found), ?_⟩
      intro other task alsoLinked same
      exact holds.once job.target other id (same ▸ alsoLinked.mem) linked
  · intro entry content found
    exact (holds.kept entry).read found
  · intro id job sequence result running
    have sound := holds.sound id job sequence _ running
    cases result with
    | error error => exact sound
    | ok _ => exact sound.1

/-! A call that nothing interrupts is the sequential call. -/

section Uninterrupted

/-- The state after some steps of any kind. -/
def Reaches (publisher : Publisher) (process : Nat)
    (state final : Publications) : Prop :=
  ∃ actions, Run (fun state action next =>
    step publisher process state action = some next) state actions final

theorem Reaches.refl (state : Publications) :
    Reaches publisher process state state :=
  ⟨[], .nil⟩

theorem Reaches.step {next final : Publications} (action : Action)
    (stepped : Publications.step publisher process state action = some next)
    (reaches : Reaches publisher process next final) :
    Reaches publisher process state final := by
  obtain ⟨actions, run⟩ := reaches
  exact ⟨action :: actions, .cons stepped run⟩

theorem Reaches.trans {middle final : Publications}
    (early : Reaches publisher process state middle)
    (late : Reaches publisher process middle final) :
    Reaches publisher process state final := by
  obtain ⟨first, before⟩ := early
  obtain ⟨second, after⟩ := late
  exact ⟨first ++ second, before.append after⟩

variable (state) (id : Nat) (job : Job) (sequence : Nat) (faults : Faults)
  (files : Files)

/-- The state in which the call has returned, after the cleanup if it
failed. -/
def returning (publisher : Publisher) (process : Nat)
    (outcome : Files × Except PublishError Unit) : Publications :=
  let finished := finish faults
    (publisher.temporary process sequence job.target) outcome
  standing state id job sequence finished.1 (.finished finished.2)

theorem cleanup_uninterrupted (error : PublishError) :
    Reaches publisher process
      (standing state id job sequence files (.cleanup error))
      (returning state id job sequence faults publisher process
        (files, .error error)) := by
  cases fails : faults.cleanup with
  | some reason =>
      refine .step (.failRemoval id reason) ?_ (.refl _)
      simp [Publications.step, failRemoval, returning, finish,
        cleanUp_fails fails]
  | none =>
      refine .step (.advance id) ?_ (.refl _)
      simp only [Publications.step, advance, standing_calls, advanceStage,
        returning, finish, cleanUp, attempt, fails, standing_files]
      cases files.removeFile
          (publisher.temporary process sequence job.target) <;> simp

theorem unlink_uninterrupted (node : Nat) :
    Reaches publisher process
      (standing state id job sequence files (.unlink node))
      (returning state id job sequence faults publisher process
        (match attempt faults.remove notFound (files.removeFile
            (publisher.temporary process sequence job.target)) with
          | .error error => (files, .error (.remove error))
          | .ok files => (files, .ok ()))) := by
  cases fails : faults.remove with
  | some reason =>
      refine .step (.failRemoval id reason) ?_
        (cleanup_uninterrupted state id job sequence faults files _)
      simp [Publications.step, failRemoval]
  | none =>
      cases removed : files.removeFile
          (publisher.temporary process sequence job.target) with
      | none =>
          refine .step (.advance id) ?_
            (cleanup_uninterrupted state id job sequence faults files _)
          simp [Publications.step, advance, advanceStage, removed]
      | some after =>
          refine .step (.advance id) ?_ (.refl _)
          simp [Publications.step, advance, advanceStage, removed, attempt,
            returning, finish]

theorem link_uninterrupted (node : Nat) :
    Reaches publisher process
      (standing state id job sequence files (.link node))
      (returning state id job sequence faults publisher process
        (linkTemporary faults files
          (publisher.temporary process sequence job.target) job.target)) := by
  unfold linkTemporary
  cases fails : faults.link with
  | some reason =>
      refine .step (.fail id reason) ?_
        (cleanup_uninterrupted state id job sequence faults files _)
      simp [Publications.step, failStage]
  | none =>
      cases linked : files.hardLink
          (publisher.temporary process sequence job.target) job.target with
      | none =>
          refine .step (.advance id) ?_
            (cleanup_uninterrupted state id job sequence faults files _)
          simp [Publications.step, advance, advanceStage, linked]
      | some published =>
          refine .step (.advance id) ?_
            (unlink_uninterrupted state id job sequence faults published node)
          simp [Publications.step, advance, advanceStage, linked]

theorem write_uninterrupted (node : Nat) (bytes : List UInt8) :
    Reaches publisher process
      (standing state id job sequence files (.write node bytes))
      (returning state id job sequence faults publisher process
        (fillTemporary faults files node
          (publisher.temporary process sequence job.target) job.target
          bytes)) := by
  have written (count : Nat) : Publications.step publisher process
      (standing state id job sequence files (.write node bytes))
      (.write id count) =
      some (standing state id job sequence
        (files.append node (bytes.take count))
        (.write node (bytes.drop count))) := by
    simp [Publications.step]
  unfold fillTemporary writeAll
  cases fails : faults.write with
  | some failure =>
      obtain ⟨count, reason⟩ := failure
      refine .step _ (written count) (.step (.fail id reason) ?_
        (cleanup_uninterrupted state id job sequence faults _ _))
      simp [Publications.step, failStage]
  | none =>
      have all := written bytes.length
      rw [List.take_length, List.drop_length] at all
      have closed : Publications.step publisher process
          (standing state id job sequence (files.append node bytes)
            (.write node [])) (.advance id) =
          some (standing state id job sequence (files.append node bytes)
            (.sync node)) := by
        simp [Publications.step, advance, advanceStage]
      refine .step _ all (.step _ closed ?_)
      dsimp only
      cases unsynced : faults.sync with
      | some reason =>
          refine .step (.fail id reason) ?_
            (cleanup_uninterrupted state id job sequence faults _ _)
          simp [Publications.step, failStage]
      | none =>
          refine .step (.advance id) ?_
            (link_uninterrupted state id job sequence faults _ node)
          simp [Publications.step, advance, advanceStage]

theorem create_uninterrupted :
    Reaches publisher process
      (standing state id job sequence files .create)
      (returning state id job sequence faults publisher process
        (assemble faults files
          (publisher.temporary process sequence job.target) job.target
          job.bytes)) := by
  unfold assemble
  cases fails : faults.create with
  | some reason =>
      refine .step (.fail id reason) ?_
        (cleanup_uninterrupted state id job sequence faults files _)
      simp [Publications.step, failStage]
  | none =>
      cases created : files.createNew
          (publisher.temporary process sequence job.target) with
      | none =>
          refine .step (.advance id) ?_
            (cleanup_uninterrupted state id job sequence faults files _)
          simp [Publications.step, advance, advanceStage, created]
      | some made =>
          obtain ⟨held, node⟩ := made
          refine .step (.advance id) ?_
            (write_uninterrupted state id job sequence faults held node
              job.bytes)
          simp [Publications.step, advance, advanceStage, created]

/-- The state after the existence test. -/
theorem checked_uninterrupted {destination : Destination}
    {bytes : List UInt8}
    (before : state.calls id = .check destination bytes)
    (admitted : publisher.refuses state.files faults.inspect destination =
      none) :
    Reaches publisher process state
      (state.setPhase id (accept destination bytes)) := by
  cases inspect : faults.inspect with
  | true =>
      refine .step (.fail id "") ?_ (.refl _)
      simp [Publications.step, before]
  | false =>
      rw [inspect] at admitted
      refine .step (.advance id) ?_ (.refl _)
      simp [Publications.step, advance, before, admitted]

/-- What a call that has returned has returned. -/
def result? : Phase → Option (Except PublishError Unit)
  | .rejected error => some (.error error)
  | .running _ _ (.finished result) => some result
  | _ => none

/-- The call has left what the sequential call leaves. -/
def Leaves (id : Nat) (state : Publications)
    (outcome : Files × Nat × Except PublishError Unit) : Prop :=
  state.files = outcome.1 ∧ state.counter = outcome.2.1 ∧
    result? (state.calls id) = some outcome.2.2

theorem loaded_uninterrupted {job : Job}
    (before : state.calls id = .load job) :
    ∃ final, Reaches publisher process state final ∧
      Leaves id final (publisher.publishTo process faults state.files
        state.counter job.target job.bytes) := by
  let asking := state.setPhase id (.exchange job state.counter)
  have observed : Publications.step publisher process state (.advance id) =
      some asking := by
    simp [Publications.step, advance, before, asking]
  have exchanged : Publications.step publisher process asking (.advance id) =
      some (asking.exchange id job state.counter false) := by
    simp [Publications.step, advance, asking, setPhase_calls_same]
  unfold Publisher.publishTo
  cases room : Usize.checkedAdd state.counter 1 with
  | none =>
      refine ⟨_, .step _ observed (.step _ exchanged (.refl _)), ?_⟩
      simp [exchange, compareExchange, room, asking, setPhase, Leaves, result?]
  | some next =>
      let drawn : Publications := { state with counter := next }
      have taken : asking.exchange id job state.counter false =
          drawn.standing id job state.counter state.files .allocate := by
        simp [exchange, compareExchange, room, asking, drawn, standing,
          setPhase]
      rw [taken] at exchanged
      dsimp only
      cases allocated : faults.allocate with
      | some failure =>
          refine ⟨drawn.standing id job state.counter state.files
              (.finished (.error (.allocation failure.1 failure.2))),
            .step _ observed (.step _ exchanged
              (.step (.failAllocation id failure.1 failure.2) ?_ (.refl _))),
            ?_⟩
          · simp [Publications.step]
          · simp [Leaves, result?, standing, setPhase, drawn]
      | none =>
          refine ⟨_, .step _ observed (.step _ exchanged
            (.step (.advance id) ?_ (create_uninterrupted drawn id job
              state.counter faults state.files))), ?_⟩
          · simp [Publications.step, advance, advanceStage]
          · simp [Leaves, returning, result?, drawn, standing, setPhase]

/-- Run on its own, a call does what `publish` says. -/
theorem publish_uninterrupted (idle : state.calls id = .idle)
    (destination : Destination) (bytes : List UInt8) :
    ∃ final, Reaches publisher process state final ∧
      Leaves id final (publisher.publish process faults state.files
        state.counter destination bytes) := by
  let checking := state.setPhase id (.check destination bytes)
  have begun : Publications.step publisher process state
      (.publish id destination bytes) = some checking := by
    simp [Publications.step, idle, checking]
  have before : checking.calls id = .check destination bytes :=
    setPhase_calls_same _ _ _
  unfold Publisher.publish
  cases refused : publisher.refuses state.files faults.inspect destination with
  | some message =>
      have inspected : publisher.refuses state.files false destination =
          some message := by
        cases inspect : faults.inspect with
        | false => rwa [inspect] at refused
        | true =>
            rw [inspect, publisher.refuses_uninspected] at refused
            contradiction
      refine ⟨checking.setPhase id (.rejected (.refused message)),
        .step _ begun (.step (.advance id) ?_ (.refl _)), ?_⟩
      · have same : checking.files = state.files := rfl
        simp [Publications.step, advance, before, same, inspected]
      · simp [Leaves, result?, setPhase, checking]
  | none =>
      have admitted : Reaches publisher process state
          (checking.setPhase id (accept destination bytes)) :=
        .step _ begun (checked_uninterrupted checking id faults before refused)
      cases named : destination.entry with
      | none =>
          refine ⟨_, admitted, ?_⟩
          simp [Leaves, accept, named, result?, setPhase, checking]
      | some target =>
          have accepted : accept destination bytes = .load ⟨target, bytes⟩ := by
            simp [accept, named]
          rw [accepted] at admitted
          have loading : (checking.setPhase id (.load ⟨target, bytes⟩)).calls id =
              .load ⟨target, bytes⟩ := setPhase_calls_same _ _ _
          obtain ⟨final, reached, left⟩ :=
            loaded_uninterrupted _ id faults loading
          exact ⟨final, admitted.trans reached, left⟩

end Uninterrupted

def toOutBin : Destination := ⟨"out.bin", 0, some Publisher.outBin.name⟩

/-- Two calls for one destination. The first writes its bytes one at a time and
wins, and the second finds the name taken and cleans up. -/
def race : List Action :=
  [.publish 0 toOutBin [1, 2], .publish 1 toOutBin [3], .advance 0, .advance 1,
    .advance 0, .advance 1, .advance 0, .fail 1 "", .advance 1, .advance 0,
    .advance 1, .advance 0, .advance 1, .write 0 1, .write 1 1, .write 0 1,
    .advance 0, .advance 1, .advance 0, .advance 1, .advance 0, .advance 1,
    .advance 0, .advance 1]

theorem publication_atomic_in_race :
    ∃ state : Publications,
      Run (Step .xen 7) (start .empty 0) race state ∧
      state.files.read Publisher.outBin = some [1, 2] ∧
      state.files.entries (Publisher.xen.temporary 7 0 Publisher.outBin) =
        none ∧
      state.files.entries (Publisher.xen.temporary 7 1 Publisher.outBin) =
        none := by
  have plain : ∀ target ∈ toOutBin.entry, ¬ TemporaryForm .xen 7 target := by
    rintro _ ⟨⟩ ⟨sequence, name, same⟩
    exact absurd (congrArg List.head? same) (by
      simp [Publisher.temporaryName, Publisher.outBin])
  obtain ⟨state, run, complete, won, lost⟩ : ∃ state : Publications,
      Run (Step .xen 7) (start .empty 0) race state ∧
      state.files.read Publisher.outBin = some [1, 2] ∧
      state.calls 0 = .running ⟨Publisher.outBin, [1, 2]⟩ 0
        (.finished (.ok ())) ∧
      state.calls 1 = .running ⟨Publisher.outBin, [3]⟩ 1
        (.finished (.error (.link fileExists))) := by
    refine ⟨_, .cons ⟨rfl, plain⟩ (.cons ⟨rfl, plain⟩
      (.cons ⟨rfl, trivial⟩ (.cons ⟨rfl, trivial⟩ (.cons ⟨rfl, trivial⟩
      (.cons ⟨rfl, trivial⟩ (.cons ⟨rfl, trivial⟩ (.cons ⟨rfl, trivial⟩
      (.cons ⟨rfl, trivial⟩ (.cons ⟨rfl, trivial⟩ (.cons ⟨rfl, trivial⟩
      (.cons ⟨rfl, trivial⟩ (.cons ⟨rfl, trivial⟩ (.cons ⟨rfl, trivial⟩
      (.cons ⟨rfl, trivial⟩ (.cons ⟨rfl, trivial⟩ (.cons ⟨rfl, trivial⟩
      (.cons ⟨rfl, trivial⟩ (.cons ⟨rfl, trivial⟩ (.cons ⟨rfl, trivial⟩
      (.cons ⟨rfl, trivial⟩ (.cons ⟨rfl, trivial⟩ (.cons ⟨rfl, trivial⟩
      (.cons ⟨rfl, trivial⟩ .nil))))))))))))))))))))))), rfl, rfl, rfl⟩
  obtain ⟨_, _, _, _, gone⟩ := publication_atomic .xen 7
    (fun _ _ => rfl) run
  exact ⟨state, run, complete, gone 0 _ 0 _ won, gone 1 _ 1 _ lost⟩

end Publications

end LibVmi.Acquisition
