import LibVmi.Acquisition.Cores
import LibVmi.Data.Runs

namespace LibVmi.Acquisition.Libvirt

open Data Artifact

/-! A libvirt acquisition one step at a time. It writes the range under its own
name, so what others find there is what has been written so far. -/

structure Request where
  destination : Destination
  start : Gpa
  length : UInt64

structure Work where
  target : Entry
  core : Entry

/-- Where a call stands. From the load of the core on it knows the range that
was asked for. -/
inductive Phase where
  | check
  | dump (work : Work)
  | load (work : Work)
  | create (work : Work) (bytes : List UInt8)
  | write (work : Work) (bytes : List UInt8) (node : Nat)
      (remaining : List UInt8)
  | sync (work : Work) (bytes : List UInt8)
  | unpublish (work : Work) (bytes : List UInt8) (error : String)
  | cleanup (work : Work) (bytes : Option (List UInt8)) (result : Result Unit)
  | returned (bytes : Option (List UInt8)) (result : Result Unit)
  | crashed (bytes : Option (List UInt8))

def Phase.bytes? : Phase → Option (List UInt8)
  | .check | .dump _ | .load _ => none
  | .create _ bytes | .write _ bytes _ _ | .sync _ bytes
  | .unpublish _ bytes _ => some bytes
  | .cleanup _ bytes _ | .returned bytes _ | .crashed bytes => bytes

structure Progress where
  disk : Disk
  phase : Phase

/-- `fail` makes a step fail that could have succeeded, and after `crash` there
are no more steps. -/
inductive Action where
  | advance
  | write (count : Nat)
  | fail (error : String)
  | crash

variable (around : Surroundings) (request : Request)

/-- Everything up to the name of the core. -/
def checked (disk : Disk) : Progress :=
  let refused : Result Unit := .error (unusableOutput around.inspectDestination
    "libvirt range" request.destination.shown)
  match checkRange "libvirt" request.start request.length,
      request.destination.entry with
  | .error error, _ => ⟨disk, .returned none (.error error)⟩
  | .ok _, none => ⟨disk, .returned none refused⟩
  | .ok _, some target =>
      if around.inspectDestination.isSome ∨ disk.files.entries target ≠ none then
        ⟨disk, .returned none refused⟩
      else
        match temporaryCorePath around disk target with
        | (disk, .error error) => ⟨disk, .returned none (.error error)⟩
        | (disk, .ok core) => ⟨disk, .dump ⟨target, core⟩⟩

def dumped (disk : Disk) (work : Work) : Progress :=
  match saveSnapshot around disk work.core with
  | ⟨disk, _, .error error⟩ => ⟨disk, .cleanup work none (.error error)⟩
  | ⟨disk, _, .ok _⟩ => ⟨disk, .load work⟩

def range (disk : Disk) (work : Work) : Result (List UInt8) := do
  let bundle ← elfVmcoreFile around disk.files work.core
  rangeBytes "failed to allocate range" around bundle request.start
    request.length.toNat

def createFailed (error : String) : Result Unit :=
  .error (.backend
    ("failed to create " ++ request.destination.shown ++ ": " ++ error))

def publishFailed (error : String) : Result Unit :=
  .error (.backend
    ("failed to publish " ++ request.destination.shown ++ ": " ++ error))

def advance (disk : Disk) : Phase → Option Progress
  | .check => some (checked around request disk)
  | .dump work => some (dumped around disk work)
  | .load work => some ⟨disk,
      match range around request disk work with
      | .error error => .cleanup work none (.error error)
      | .ok bytes => .create work bytes⟩
  | .create work bytes =>
      match disk.files.createNew work.target with
      | none => some ⟨disk, .cleanup work (some bytes)
          (createFailed request fileExists)⟩
      | some (files, node) =>
          some ⟨{ disk with files }, .write work bytes node bytes⟩
  | .write work bytes _ [] => some ⟨disk, .sync work bytes⟩
  | .write _ _ _ _ => none
  | .sync work bytes => some ⟨disk, .cleanup work (some bytes) (.ok ())⟩
  | .unpublish work bytes error => some ⟨disk.remove work.target,
      .cleanup work (some bytes) (publishFailed request error)⟩
  | .cleanup work bytes result =>
      some ⟨disk.remove work.core, .returned bytes result⟩
  | .returned _ _ | .crashed _ => none

def fail (disk : Disk) (error : String) : Phase → Option Progress
  | .create work bytes =>
      some ⟨disk, .cleanup work (some bytes) (createFailed request error)⟩
  | .write work bytes _ _ | .sync work bytes =>
      some ⟨disk, .unpublish work bytes error⟩
  | .unpublish work bytes earlier => some ⟨disk,
      .cleanup work (some bytes) (publishFailed request earlier)⟩
  | .cleanup _ bytes result => some ⟨disk, .returned bytes (do
      result
      .error (.backend
        ("failed to remove temporary libvirt core: " ++ error)))⟩
  | _ => none

def step (state : Progress) : Action → Option Progress
  | .advance => advance around request state.disk state.phase
  | .write count =>
      match state.phase with
      | .write work bytes node remaining =>
          some ⟨{ state.disk with
              files := state.disk.files.append node (remaining.take count) },
            .write work bytes node (remaining.drop count)⟩
      | _ => none
  | .fail error => fail request state.disk error state.phase
  | .crash =>
      match state.phase with
      | .returned _ _ | .crashed _ => none
      | phase => some ⟨state.disk, .crashed phase.bytes?⟩

/-- The destination is not there, or it holds the whole range. -/
def AbsentOrComplete (state : Progress) : Prop :=
  ∀ target ∈ request.destination.entry,
    state.disk.files.read target = none ∨
      ∃ bytes, state.phase.bytes? = some bytes ∧
        state.disk.files.read target = some bytes

/-- The step in which the destination comes to be. -/
def Creates (state : Progress) (action : Action) : Prop :=
  ∃ work bytes, state.phase = .create work bytes ∧ action = .advance ∧
    state.disk.files.entries work.target = none

/-- In every state that the actions lead to. -/
def AlwaysAbsentOrComplete (state : Progress) : List Action → Prop
  | [] => AbsentOrComplete request state
  | action :: rest => AbsentOrComplete request state ∧
      ∀ next, step around request state action = some next →
        AlwaysAbsentOrComplete next rest

def NeverCreates (state : Progress) : List Action → Prop
  | [] => True
  | action :: rest => ¬ Creates state action ∧
      ∀ next, step around request state action = some next →
        NeverCreates next rest

variable {around request} {state next : Progress} {action : Action}

/-! Until the destination is created. -/

theorem core_ne (around : Surroundings) (nanos sequence : Nat)
    (target : Entry) : core around nanos sequence target ≠ target := by
  intro same
  have lengths := congrArg (fun entry => entry.name.length) same
  simp [core] at lengths
  omega

/-- The name of the core is not the destination. -/
structure Work.For (work : Work) (request : Request) : Prop where
  named : request.destination.entry = some work.target
  different : work.target ≠ work.core

def Waiting (request : Request) : Phase → Prop
  | .check | .returned _ _ | .crashed _ => True
  | .dump work | .load work => work.For request ∧ request.length ≠ 0
  | .create work bytes => work.For request ∧ bytes ≠ []
  | .cleanup work _ _ => work.For request
  | .write _ _ _ _ | .sync _ _ | .unpublish _ _ _ => False

/-- The destination is absent and nothing has been done for it yet. -/
structure Untouched (request : Request) (state : Progress) : Prop where
  absent : ∀ target ∈ request.destination.entry,
    state.disk.files.entries target = none
  waiting : Waiting request state.phase

theorem Untouched.absentOrComplete (untouched : Untouched request state) :
    AbsentOrComplete request state := by
  intro target named
  exact .inl (by simp [FileSystem.read, untouched.absent target named])

theorem saveSnapshot_absent {disk : Disk} {core target : Entry}
    (different : target ≠ core) (absent : disk.files.entries target = none) :
    (saveSnapshot around disk core).disk.files.entries target = none := by
  have ran : (around.dump.run disk.files core).entries target = none := by
    unfold Dump.run
    cases around.dump.output with
    | none => exact absent
    | some content =>
        exact (disk.files.create_other different).trans absent
  unfold saveSnapshot
  by_cases ready : Ready around disk.files core
  · rw [dumpCore_ready "libvirt" ready]
    cases around.dump.result with
    | error error => exact ran
    | ok text => exact ran
  · obtain ⟨error, failed⟩ := dumpCore_unready "libvirt" ready
    rw [failed]
    exact absent

theorem remove_absent {disk : Disk} {core target : Entry}
    (absent : disk.files.entries target = none) :
    (disk.remove core).files.entries target = none := by
  by_cases same : target = core
  · exact same ▸ remove_gone disk target
  · unfold Disk.remove
    cases removed : disk.files.removeFile core with
    | none => exact absent
    | some files =>
        obtain ⟨_, rfl⟩ := FileSystem.removeFile_eq_some.mp removed
        exact (disk.files.remove_other same).trans absent

theorem core_ne_of_path {disk : Disk} {target core : Entry}
    (path : (temporaryCorePath around disk target).2 = .ok core) :
    target ≠ core := by
  unfold temporaryCorePath at path
  split at path
  · contradiction
  · cases room : Usize.checkedAdd disk.cores 1 with
    | none => simp [room] at path
    | some number =>
        cases clock : around.clock with
        | error error => simp [room, clock] at path
        | ok nanos =>
            simp only [room, clock, Except.ok.injEq] at path
            rw [← path]
            exact (core_ne around nanos disk.cores target).symm

theorem checked_untouched {disk : Disk}
    (absent : ∀ target ∈ request.destination.entry,
      disk.files.entries target = none) :
    Untouched request (checked around request disk) := by
  unfold checked
  cases inRange : checkRange "libvirt" request.start request.length with
  | error error => exact ⟨absent, trivial⟩
  | ok _ =>
      cases named : request.destination.entry with
      | none => exact ⟨absent, trivial⟩
      | some target =>
          dsimp only
          split
          · exact ⟨absent, trivial⟩
          · have same := temporaryCorePath_files around disk target
            have different := @core_ne_of_path around disk target
            rcases path : temporaryCorePath around disk target with
              ⟨numbered, result⟩
            rw [path] at same different
            have still : ∀ entry ∈ request.destination.entry,
                numbered.files.entries entry = none := by
              rw [same]
              exact absent
            cases result with
            | error error => exact ⟨still, trivial⟩
            | ok core =>
                have nonzero := (checkRange_eq_ok.mp inRange).1
                exact ⟨still, ⟨named, different rfl⟩, nonzero⟩

theorem range_ne_nil {disk : Disk} {work : Work} {bytes : List UInt8}
    (nonzero : request.length ≠ 0)
    (loaded : range around request disk work = .ok bytes) : bytes ≠ [] := by
  obtain ⟨bundle, _, read⟩ := bind_eq_ok.mp loaded
  have bounded : (List.replicate request.length.toNat (0 : UInt8)).length <
      Usize.limit := by
    rw [List.length_replicate]
    exact request.length.toNat_lt
  have sized : bytes.length = request.length.toNat := by
    unfold rangeBytes at read
    split at read
    · contradiction
    · split at read
      · rename_i filled _ result
        rw [Except.ok.injEq] at read
        subst read
        rw [SnapshotBundle.readInto_length bounded result,
          List.length_replicate]
      · contradiction
  intro empty
  apply nonzero
  rw [empty, List.length_nil] at sized
  exact UInt64.toNat_inj.mp sized.symm

/-- A step that does not create the destination leaves it alone. -/
theorem advance_untouched (untouched : Untouched request state)
    (spared : ¬ Creates state .advance)
    (advanced : advance around request state.disk state.phase = some next) :
    Untouched request next := by
  obtain ⟨disk, phase⟩ := state
  obtain ⟨absent, waiting⟩ := untouched
  dsimp only at absent waiting advanced
  cases phase with
  | check =>
      exact Option.some.inj advanced ▸ checked_untouched absent
  | dump work =>
      obtain ⟨⟨named, different⟩, nonzero⟩ := waiting
      have still := @saveSnapshot_absent around disk work.core work.target
        different (absent work.target named)
      simp only [advance, dumped, Option.some.injEq] at advanced
      rcases saved : saveSnapshot around disk work.core with
        ⟨after, asked, result⟩
      rw [saved] at advanced still
      have left : ∀ target ∈ request.destination.entry,
          after.files.entries target = none := by
        intro target member
        rw [named, Option.mem_some_iff] at member
        exact member ▸ still
      cases result with
      | error error => exact advanced ▸ ⟨left, named, different⟩
      | ok _ => exact advanced ▸ ⟨left, ⟨named, different⟩, nonzero⟩
  | load work =>
      obtain ⟨work_for, nonzero⟩ := waiting
      simp only [advance, Option.some.injEq] at advanced
      cases loaded : range around request disk work with
      | error error =>
          rw [loaded] at advanced
          exact advanced ▸ ⟨absent, work_for⟩
      | ok bytes =>
          rw [loaded] at advanced
          exact advanced ▸ ⟨absent, work_for, range_ne_nil nonzero loaded⟩
  | create work bytes =>
      exact (spared ⟨work, bytes, rfl, rfl,
        absent work.target waiting.1.named⟩).elim
  | write | sync | unpublish => exact waiting.elim
  | cleanup work bytes result =>
      refine Option.some.inj advanced ▸ ⟨?_, trivial⟩
      intro target member
      exact remove_absent (absent target member)
  | returned | crashed => contradiction

theorem step_untouched (untouched : Untouched request state)
    (spared : ¬ Creates state action)
    (stepped : step around request state action = some next) :
    Untouched request next := by
  cases action with
  | advance => exact advance_untouched untouched spared stepped
  | write count =>
      have waiting := untouched.waiting
      simp only [step] at stepped
      split at stepped
      · rename_i standing
        rw [standing] at waiting
        exact waiting.elim
      · contradiction
  | fail error =>
      obtain ⟨disk, phase⟩ := state
      obtain ⟨absent, waiting⟩ := untouched
      cases phase with
      | create work bytes =>
          exact Option.some.inj stepped ▸ ⟨absent, waiting.1⟩
      | cleanup work bytes result =>
          exact Option.some.inj stepped ▸ ⟨absent, trivial⟩
      | write | sync | unpublish => exact waiting.elim
      | check | dump | load | returned | crashed => contradiction
  | crash =>
      simp only [step] at stepped
      split at stepped
      · contradiction
      · contradiction
      · exact Option.some.inj stepped ▸ ⟨untouched.absent, trivial⟩

/-- A destination that has just been created is empty, and no range is. -/
theorem created_incomplete (around : Surroundings) (untouched : Untouched request state)
    (creates : Creates state action) :
    ∃ next, step around request state action = some next ∧
      ¬ AbsentOrComplete request next := by
  obtain ⟨disk, phase⟩ := state
  obtain ⟨work, bytes, rfl, rfl, absent⟩ := creates
  obtain ⟨⟨named, _⟩, nonempty⟩ := untouched.waiting
  have made : disk.files.createNew work.target =
      some (disk.files.create work.target, disk.files.next) :=
    FileSystem.createNew_eq_some.mpr ⟨absent, rfl, rfl⟩
  refine ⟨⟨{ disk with files := disk.files.create work.target },
    .write work bytes disk.files.next bytes⟩, ?_, ?_⟩
  · simp [step, advance, made]
  · intro holds
    have found : (disk.files.create work.target).read work.target =
        some [] := by
      simp [FileSystem.read]
    rcases holds work.target named with gone | ⟨_, ⟨rfl⟩, complete⟩
    · rw [found] at gone
      contradiction
    · rw [found] at complete
      exact nonempty (Option.some.inj complete).symm

/-! Whole runs. -/

theorem always_iff_never (actions : List Action)
    (untouched : Untouched request state) :
    AlwaysAbsentOrComplete around request state actions ↔
      NeverCreates around request state actions := by
  induction actions generalizing state with
  | nil => exact iff_of_true untouched.absentOrComplete trivial
  | cons action rest induction =>
      constructor
      · intro given
        obtain ⟨_, later⟩ := given
        have spared : ¬ Creates state action := by
          intro creates
          obtain ⟨next, stepped, incomplete⟩ :=
            created_incomplete around untouched creates
          have holds := later next stepped
          cases rest with
          | nil => exact incomplete holds
          | cons _ _ => exact incomplete holds.1
        refine ⟨spared, ?_⟩
        intro next stepped
        exact (induction (step_untouched untouched spared stepped)).mp
          (later next stepped)
      · intro given
        obtain ⟨spared, later⟩ := given
        refine ⟨untouched.absentOrComplete, ?_⟩
        intro next stepped
        exact (induction (step_untouched untouched spared stepped)).mpr
          (later next stepped)

/-- The destination is absent or complete throughout exactly when it is absent
and the call does not get to creating it. -/
theorem in_place_atomic_iff (around : Surroundings) (request : Request)
    (disk : Disk) (actions : List Action) :
    AlwaysAbsentOrComplete around request ⟨disk, .check⟩ actions ↔
      (∀ target ∈ request.destination.entry,
        disk.files.entries target = none) ∧
      NeverCreates around request ⟨disk, .check⟩ actions := by
  constructor
  · intro always
    have first : AbsentOrComplete request ⟨disk, .check⟩ := by
      cases actions with
      | nil => exact always
      | cons _ _ => exact always.1
    have absent : ∀ target ∈ request.destination.entry,
        disk.files.entries target = none := by
      intro target named
      rcases first target named with gone | ⟨bytes, unknown, _⟩
      · exact Option.map_eq_none_iff.mp gone
      · contradiction
    have untouched : Untouched request ⟨disk, .check⟩ := ⟨absent, trivial⟩
    exact ⟨absent, (always_iff_never actions untouched).mp always⟩
  · intro given
    obtain ⟨absent, never⟩ := given
    have untouched : Untouched request ⟨disk, .check⟩ := ⟨absent, trivial⟩
    exact (always_iff_never actions untouched).mpr never

/-! A call that nothing interrupts is the sequential call. -/

section Uninterrupted

/-- The state after some steps. -/
def Reaches (around : Surroundings) (request : Request)
    (state final : Progress) : Prop :=
  ∃ actions, Run (fun state action next =>
    step around request state action = some next) state actions final

theorem Reaches.refl (state : Progress) : Reaches around request state state :=
  ⟨[], .nil⟩

theorem Reaches.head {final : Progress} (action : Action)
    (stepped : step around request state action = some next)
    (reaches : Reaches around request next final) :
    Reaches around request state final := by
  obtain ⟨actions, run⟩ := reaches
  exact ⟨action :: actions, .cons stepped run⟩

variable (around request) (disk : Disk) (work : Work) (bytes : List UInt8)

theorem cleanup_uninterrupted (known : Option (List UInt8))
    (result : Result Unit) :
    Reaches around request ⟨disk, .cleanup work known result⟩
      ⟨disk.remove work.core, .returned known result⟩ :=
  .head .advance rfl (.refl _)

theorem unpublish_uninterrupted (error : String) :
    Reaches around request ⟨disk, .unpublish work bytes error⟩
      ⟨Disk.remove ⟨cleanUp around.publication disk.files work.target,
          disk.cores, disk.publications⟩ work.core,
        .returned (some bytes) (publishFailed request error)⟩ := by
  cases fails : around.publication.cleanup with
  | some reason =>
      rw [cleanUp_fails fails]
      exact .head (.fail reason) rfl
        (cleanup_uninterrupted around request disk work _ _)
  | none =>
      have same : (⟨cleanUp around.publication disk.files work.target,
          disk.cores, disk.publications⟩ : Disk) = disk.remove work.target := by
        unfold cleanUp attempt Disk.remove
        rw [fails]
        cases disk.files.removeFile work.target <;> rfl
      rw [same]
      exact .head .advance rfl (cleanup_uninterrupted around request
        (disk.remove work.target) work _ _)

theorem write_uninterrupted (node count : Nat) (remaining : List UInt8) :
    step around request ⟨disk, .write work bytes node remaining⟩
        (.write count) =
      some ⟨⟨disk.files.append node (remaining.take count), disk.cores,
          disk.publications⟩,
        .write work bytes node (remaining.drop count)⟩ := rfl

theorem publish_uninterrupted :
    Reaches around request ⟨disk, .create work bytes⟩
      ⟨Disk.remove ⟨(publishNew around.publication request.destination.shown
          disk.files work.target bytes).1, disk.cores, disk.publications⟩
          work.core,
        .returned (some bytes) (publishNew around.publication
          request.destination.shown disk.files work.target bytes).2⟩ := by
  unfold publishNew
  cases fails : around.publication.create with
  | some reason =>
      exact .head (.fail reason) rfl
        (cleanup_uninterrupted around request disk work _ _)
  | none =>
      cases created : disk.files.createNew work.target with
      | none =>
          have failed : step around request ⟨disk, .create work bytes⟩
              .advance = some ⟨disk, .cleanup work (some bytes)
                (createFailed request fileExists)⟩ := by
            simp [step, advance, created]
          exact .head .advance failed
            (cleanup_uninterrupted around request disk work _ _)
      | some made =>
          obtain ⟨files, node⟩ := made
          have begun : step around request ⟨disk, .create work bytes⟩ .advance =
              some ⟨⟨files, disk.cores, disk.publications⟩,
                .write work bytes node bytes⟩ := by
            simp [step, advance, created]
          refine .head .advance begun ?_
          cases unwritten : around.publication.write with
          | some failure =>
              obtain ⟨count, reason⟩ := failure
              refine .head (.write count) rfl (.head (.fail reason) rfl ?_)
              exact unpublish_uninterrupted around request
                ⟨files.append node (bytes.take count), disk.cores,
                  disk.publications⟩ work bytes reason
          | none =>
              have written := write_uninterrupted around request
                ⟨files, disk.cores, disk.publications⟩ work bytes node
                bytes.length bytes
              rw [List.take_length, List.drop_length] at written
              refine .head _ written (.head .advance rfl ?_)
              cases unsynced : around.publication.sync with
              | some reason =>
                  refine .head (.fail reason) rfl ?_
                  exact unpublish_uninterrupted around request
                    ⟨files.append node bytes, disk.cores, disk.publications⟩
                    work bytes reason
              | none =>
                  exact .head .advance rfl (cleanup_uninterrupted around request
                    ⟨files.append node bytes, disk.cores, disk.publications⟩
                    work _ _)

theorem load_uninterrupted :
    ∃ known, Reaches around request ⟨disk, .load work⟩
      ⟨(extractRange around disk work.core work.target
          request.destination.shown request.start
          request.length.toNat).1.remove work.core,
        .returned known (extractRange around disk work.core work.target
          request.destination.shown request.start request.length.toNat).2⟩ := by
  have stepped : step around request ⟨disk, .load work⟩ .advance = some ⟨disk,
      match range around request disk work with
      | .error error => .cleanup work none (.error error)
      | .ok bytes => .create work bytes⟩ := rfl
  unfold extractRange
  unfold range at stepped
  cases loaded : elfVmcoreFile around disk.files work.core with
  | error error =>
      rw [loaded, error_bind] at stepped
      exact ⟨none, .head .advance stepped
        (cleanup_uninterrupted around request disk work _ _)⟩
  | ok bundle =>
      rw [loaded, ok_bind] at stepped
      dsimp only
      cases read : rangeBytes "failed to allocate range" around bundle
          request.start request.length.toNat with
      | error error =>
          rw [read] at stepped
          exact ⟨none, .head .advance stepped
            (cleanup_uninterrupted around request disk work _ _)⟩
      | ok bytes =>
          rw [read] at stepped
          exact ⟨some bytes, .head .advance stepped
            (publish_uninterrupted around request disk work bytes)⟩

theorem dump_uninterrupted :
    ∃ known, Reaches around request ⟨disk, .dump work⟩
      (match saveSnapshot around disk work.core with
      | ⟨disk, _, .error error⟩ =>
          ⟨disk.remove work.core, .returned known (.error error)⟩
      | ⟨disk, _, .ok _⟩ =>
          ⟨(extractRange around disk work.core work.target
              request.destination.shown request.start
              request.length.toNat).1.remove work.core,
            .returned known (extractRange around disk work.core work.target
              request.destination.shown request.start
              request.length.toNat).2⟩) := by
  have stepped : step around request ⟨disk, .dump work⟩ .advance =
      some (dumped around disk work) := rfl
  unfold dumped at stepped
  rcases saved : saveSnapshot around disk work.core with ⟨after, asked, result⟩
  rw [saved] at stepped
  cases result with
  | error error =>
      exact ⟨none, .head .advance stepped
        (cleanup_uninterrupted around request after work _ _)⟩
  | ok _ =>
      obtain ⟨known, reached⟩ := load_uninterrupted around request after work
      exact ⟨known, .head .advance stepped reached⟩

/-- Run on its own, a call does what `savePhysicalRange` says. -/
theorem save_uninterrupted :
    ∃ known, Reaches around request ⟨disk, .check⟩
      ⟨(savePhysicalRange around disk request.destination request.start
          request.length).disk,
        .returned known (savePhysicalRange around disk request.destination
          request.start request.length).value⟩ := by
  suffices reached : ∃ known, Reaches around request
      (checked around request disk)
      ⟨(savePhysicalRange around disk request.destination request.start
          request.length).disk,
        .returned known (savePhysicalRange around disk request.destination
          request.start request.length).value⟩ by
    obtain ⟨known, reached⟩ := reached
    exact ⟨known, .head .advance rfl reached⟩
  unfold checked savePhysicalRange
  cases checkRange "libvirt" request.start request.length with
  | error error => exact ⟨none, .refl _⟩
  | ok _ =>
      cases request.destination.entry with
      | none => exact ⟨none, .refl _⟩
      | some target =>
          dsimp only
          split
          · exact ⟨none, .refl _⟩
          · rcases temporaryCorePath around disk target with ⟨after, result⟩
            cases result with
            | error error => exact ⟨none, .refl _⟩
            | ok core =>
                obtain ⟨known, reached⟩ :=
                  dump_uninterrupted around request after ⟨target, core⟩
                refine ⟨known, ?_⟩
                dsimp only at reached ⊢
                rcases saved : saveSnapshot around after core with
                  ⟨left, asked, result⟩
                rw [saved] at reached
                cases result with
                | error error => exact reached
                | ok _ => exact reached

end Uninterrupted

/-! A machine with two bytes of memory. -/

def smallCore : Buffer :=
  ⟨elfImage [⟨120, 0x3000, 2, 2⟩] [5, 6], by decide +kernel⟩

def smallMachine : Surroundings where
  process := 7
  clock := .ok 5
  showEntry := fun entry => String.ofList entry.name
  nameIsUtf8 := true
  pathIsUtf8 := true
  coreAllocation := none
  inspectDestination := none
  inspectCore := none
  arguments := none
  dump := ⟨some smallCore.bytes, .ok ""⟩
  openCore := fun _ => .ok (diskFile smallCore)
  buffer := none
  publication := Publisher.noFaults

def bothBytes : Request :=
  ⟨⟨"out.bin", 0, some Publisher.outBin.name⟩, ⟨0x3000⟩, 2⟩

def smallWork : Work :=
  ⟨Publisher.outBin, core smallMachine 5 0 Publisher.outBin⟩

private theorem smallCore_loaded (source : String) :
    fromElfVmcore source smallCore = .ok ⟨⟨"elf-vmcore", source⟩,
      [.new ⟨0x3000⟩ ⟨[5, 6], by decide⟩]⟩ := by
  refine fromElf_eq_ok.mpr ⟨by decide, by decide +kernel, 64,
    by decide +kernel, 56, by decide +kernel, 1, by decide +kernel, by decide,
    [.new ⟨0x3000⟩ ⟨[5, 6], by decide⟩], by decide +kernel, by simp,
    arrange_eq_ok.mpr ⟨?_, by simp⟩, rfl⟩
  exact (sortByStart_of_sorted (by simp [SortedByStart])).symm

/-- The disk with the core on it. -/
def dumpedDisk : Disk :=
  ⟨smallMachine.dump.run .empty smallWork.core, 1, 0⟩

private theorem smallRange :
    range smallMachine bothBytes dumpedDisk smallWork = .ok [5, 6] := by
  have loaded : elfVmcoreFile smallMachine dumpedDisk.files smallWork.core =
      .ok ⟨⟨"elf-vmcore", smallMachine.showEntry smallWork.core⟩,
        [.new ⟨0x3000⟩ ⟨[5, 6], by decide⟩]⟩ := by
    have captured := @readFileLimited_holds
      (coreHost smallMachine dumpedDisk.files smallWork.core)
      (smallMachine.showEntry smallWork.core) (diskFile smallCore) rfl smallCore
      (diskFile_holds smallCore) defaultMaxArtifactSize (by decide)
      (by decide +kernel) "ELF artifact"
    rw [elfVmcoreFile, coreFile, captured, ok_bind]
    exact smallCore_loaded _
  rw [range, loaded, ok_bind]
  rfl

/-- The process dies after the first of the two bytes. -/
theorem crash_leaves_partial_range :
    ∃ state, Run (fun state action next =>
        step smallMachine bothBytes state action = some next)
        ⟨⟨.empty, 0, 0⟩, .check⟩
        [.advance, .advance, .advance, .advance, .write 1, .crash] state ∧
      state.phase = .crashed (some [5, 6]) ∧
      state.disk.files.read Publisher.outBin = some [5] ∧
      ¬ AbsentOrComplete bothBytes state := by
  have loaded : step smallMachine bothBytes ⟨dumpedDisk, .load smallWork⟩
      .advance = some ⟨dumpedDisk, .create smallWork [5, 6]⟩ := by
    simp [step, advance, smallRange]
  obtain ⟨state, run, known, found⟩ : ∃ state, Run (fun state action next =>
        step smallMachine bothBytes state action = some next)
        ⟨⟨.empty, 0, 0⟩, .check⟩
        [.advance, .advance, .advance, .advance, .write 1, .crash] state ∧
      state.phase = .crashed (some [5, 6]) ∧
      state.disk.files.read Publisher.outBin = some [5] :=
    ⟨_, .cons rfl (.cons rfl (.cons loaded (.cons rfl (.cons rfl
      (.cons rfl .nil))))), rfl, rfl⟩
  refine ⟨state, run, known, found, ?_⟩
  intro holds
  rcases holds Publisher.outBin rfl with gone | ⟨bytes, whole, complete⟩
  · rw [found] at gone
    contradiction
  · rw [known] at whole
    rw [found, ← whole] at complete
    exact absurd complete (by decide)

end LibVmi.Acquisition.Libvirt
