import LibVmi.Ffi.Snapshots

namespace LibVmi.Ffi

open Data Artifact

namespace Registry

@[simp] theorem setPhase_calls_same (registry : Registry) (id : Nat)
    (phase : Phase) : (registry.setPhase id phase).calls id = phase := by
  simp [setPhase]

theorem setPhase_calls_other (registry : Registry) {id other : Nat}
    (phase : Phase) (different : other ≠ id) :
    (registry.setPhase id phase).calls other = registry.calls other := by
  simp [setPhase, different]

@[simp] theorem release_calls_same (registry : Registry) (id : Nat)
    (phase : Phase) : (registry.release id phase).calls id = phase := by
  simp [release]

/-! Everything a step can do. -/

/-- What a call asks for the lock for. -/
def Initial : Task → Prop
  | .reserve _ | .lookup _ _ | .remove _ => True
  | _ => False

/-- The phases a call can begin in: none of them has touched the registry. -/
def Begins : Phase → Prop
  | .waiting task => Initial task
  | .returned (.useFailed _ _ _) => True
  | .returned (.openFailed error) => error ≠ .exhausted
  | .returned (.closed token closing) => closing = .null ∧ token = 0
  | _ => False

inductive Effect (registry : Registry) : Registry → Prop
  | begun (id : Nat) (phase : Phase) (before : registry.calls id = .idle)
      (begins : Begins phase) : Effect registry (registry.setPhase id phase)
  | acquired (id : Nat) (task : Task)
      (before : registry.calls id = .waiting task)
      (free : registry.holder = none) :
      Effect registry ({ registry with holder := some id }.setPhase id
        (.holding task))
  | refused (id : Nat) (bundle : SnapshotBundle) (error : String)
      (before : registry.calls id = .holding (.reserve bundle)) :
      Effect registry (registry.release id
        (.returned (.openFailed (.growth error))))
  | reserved (id : Nat) (bundle : SnapshotBundle)
      (before : registry.calls id = .holding (.reserve bundle)) :
      Effect registry (registry.setPhase id (.holding (.allocate bundle)))
  | observed (id : Nat) (bundle : SnapshotBundle) (task : Task)
      (before : registry.calls id = .holding task) :
      Effect registry (registry.setPhase id
        (.holding (.exchange bundle registry.counter)))
  | exhausted (id : Nat) (bundle : SnapshotBundle) (current : Nat)
      (before : registry.calls id = .holding (.exchange bundle current))
      (full : Usize.checkedAdd current 1 = none) :
      Effect registry (registry.release id
        (.returned (.openFailed .exhausted)))
  | taken (id : Nat) (bundle : SnapshotBundle) (current next : Nat)
      (before : registry.calls id = .holding (.exchange bundle current))
      (room : Usize.checkedAdd current 1 = some next)
      (same : registry.counter = current) :
      Effect registry ({ registry with counter := next }.setPhase id
        (.holding (.insert bundle current)))
  | inserted (id : Nat) (bundle : SnapshotBundle) (token : Nat)
      (before : registry.calls id = .holding (.insert bundle token)) :
      Effect registry ({ registry with
          handles := Function.update registry.handles token (some bundle) }.release id
        (.returned (.opened bundle token)))
  | found (id token : Nat) (use : Use) (bundle : SnapshotBundle)
      (before : registry.calls id = .holding (.lookup token use))
      (live : registry.handles token = some bundle) :
      Effect registry (registry.release id (.cloned token use bundle))
  | missed (id token : Nat) (use : Use)
      (before : registry.calls id = .holding (.lookup token use))
      (dead : registry.handles token = none) :
      Effect registry (registry.release id
        (.returned (.useFailed token use .notLive)))
  | removed (id token : Nat) (bundle : SnapshotBundle)
      (before : registry.calls id = .holding (.remove token))
      (live : registry.handles token = some bundle) :
      Effect registry ({ registry with
          handles := Function.update registry.handles token none }.release id
        (.returned (.closed token .removed)))
  | absent (id token : Nat)
      (before : registry.calls id = .holding (.remove token))
      (dead : registry.handles token = none) :
      Effect registry (registry.release id
        (.returned (.closed token .notLive)))
  | answered (id token : Nat) (use : Use) (bundle : SnapshotBundle)
      (before : registry.calls id = .cloned token use bundle) :
      Effect registry (registry.setPhase id
        (.returned (.used token use (use.answer bundle))))

theorem bundle_ne_exhausted (request : OpenRequest)
    (allocated : Except String Unit)
    (load : VmiArtifactFormat → String → Result SnapshotBundle) :
    request.bundle allocated load ≠ .error .exhausted := by
  simp [OpenRequest.bundle, bind_eq_error]

theorem begins_open (request : OpenRequest) (allocated : Except String Unit)
    (load : VmiArtifactFormat → String → Result SnapshotBundle) :
    Begins (openPhase (request.bundle allocated load)) := by
  cases loaded : request.bundle allocated load with
  | ok bundle => trivial
  | error error =>
      intro same
      subst same
      exact bundle_ne_exhausted request allocated load loaded

theorem begins_use (token : Nat) (use : Use) : Begins (usePhase token use) := by
  unfold usePhase
  cases use.check with
  | error error => trivial
  | ok _ =>
      dsimp only
      split <;> trivial

theorem begins_close (token : Nat) : Begins (closePhase token) := by
  unfold closePhase
  split
  · rename_i null
    exact ⟨rfl, null⟩
  · trivial

theorem exchange_effect {registry : Registry} {id : Nat}
    {bundle : SnapshotBundle} {current : Nat} (spurious : Bool)
    (before : registry.calls id = .holding (.exchange bundle current)) :
    Effect registry (registry.exchange id bundle current spurious) := by
  unfold exchange
  cases turn : compareExchange registry.counter current spurious with
  | exhausted =>
      exact .exhausted id bundle current before
        (compareExchange_exhausted.mp turn)
  | taken next =>
      obtain ⟨same, room⟩ := compareExchange_taken turn
      exact .taken id bundle current next before room same
  | observed observed =>
      rw [compareExchange_observed turn]
      exact .observed id bundle _ before

theorem perform_lookup_live {registry : Registry} {id token : Nat} {use : Use}
    {bundle : SnapshotBundle} (live : registry.handles token = some bundle) :
    registry.perform id (.lookup token use) =
      registry.release id (.cloned token use bundle) := by
  simp [perform, live]

theorem perform_lookup_dead {registry : Registry} {id token : Nat} {use : Use}
    (dead : registry.handles token = none) :
    registry.perform id (.lookup token use) =
      registry.release id (.returned (.useFailed token use .notLive)) := by
  simp [perform, dead]

theorem perform_remove_live {registry : Registry} {id token : Nat}
    {bundle : SnapshotBundle} (live : registry.handles token = some bundle) :
    registry.perform id (.remove token) =
      { registry with
          handles := Function.update registry.handles token none }.release id
        (.returned (.closed token .removed)) := by
  simp [perform, live]

theorem perform_remove_dead {registry : Registry} {id token : Nat}
    (dead : registry.handles token = none) :
    registry.perform id (.remove token) =
      registry.release id (.returned (.closed token .notLive)) := by
  simp [perform, dead]

theorem perform_effect {registry : Registry} {id : Nat} {task : Task}
    (before : registry.calls id = .holding task) :
    Effect registry (registry.perform id task) := by
  cases task with
  | reserve bundle => exact .reserved id bundle before
  | allocate bundle => exact .observed id bundle _ before
  | exchange bundle current => exact exchange_effect false before
  | insert bundle token => exact .inserted id bundle token before
  | lookup token use =>
      cases live : registry.handles token with
      | some bundle =>
          rw [perform_lookup_live live]
          exact .found id token use bundle before live
      | none =>
          rw [perform_lookup_dead live]
          exact .missed id token use before live
  | remove token =>
      cases live : registry.handles token with
      | some bundle =>
          rw [perform_remove_live live]
          exact .removed id token bundle before live
      | none =>
          rw [perform_remove_dead live]
          exact .absent id token before live

theorem advance_effect {registry next : Registry} {id : Nat}
    (advanced : registry.advance id = some next) : Effect registry next := by
  unfold advance at advanced
  cases before : registry.calls id with
  | waiting task =>
      cases free : registry.holder with
      | some other => simp [before, free] at advanced
      | none =>
          simp only [before, free, Option.some.injEq] at advanced
          exact advanced ▸ .acquired id task before free
  | holding task =>
      simp only [before, Option.some.injEq] at advanced
      exact advanced ▸ perform_effect before
  | cloned token use bundle =>
      simp only [before, Option.some.injEq] at advanced
      exact advanced ▸ .answered id token use bundle before
  | idle | returned => simp [before] at advanced

theorem step_effect {registry next : Registry} {action : Action}
    (stepped : Step registry action next) : Effect registry next := by
  unfold Step at stepped
  cases action with
  | beginOpen id request allocated load =>
      cases before : registry.calls id <;>
        simp only [step, before, Option.some.injEq, reduceCtorEq] at stepped
      exact stepped ▸ .begun id _ before (begins_open request allocated load)
  | beginUse id token use =>
      cases before : registry.calls id <;>
        simp only [step, before, Option.some.injEq, reduceCtorEq] at stepped
      exact stepped ▸ .begun id _ before (begins_use token use)
  | beginClose id token =>
      cases before : registry.calls id <;>
        simp only [step, before, Option.some.injEq, reduceCtorEq] at stepped
      exact stepped ▸ .begun id _ before (begins_close token)
  | advance id => exact advance_effect stepped
  | growthFails id error =>
      simp only [step] at stepped
      split at stepped
      · rename_i bundle before
        exact Option.some.inj stepped ▸ .refused id bundle error before
      · contradiction
  | exchangeFails id =>
      simp only [step] at stepped
      split at stepped
      · rename_i bundle current before
        exact Option.some.inj stepped ▸ exchange_effect true before
      · contradiction

/-! What a call may claim of the registry where it stands. -/

end Registry

/-- The token a call has taken from the counter. -/
def Phase.token? : Phase → Option Nat
  | .holding (.insert _ token) | .returned (.opened _ token) => some token
  | _ => none

def Phase.removal? : Phase → Option Nat
  | .returned (.closed token .removed) => some token
  | _ => none

def Phase.Returned : Phase → Prop
  | .returned _ => True
  | _ => False

namespace Registry

def Opened (registry : Registry) (bundle : SnapshotBundle) (token : Nat) :
    Prop :=
  ∃ id, registry.calls id = .returned (.opened bundle token)

def Removed (registry : Registry) (token : Nat) : Prop :=
  ∃ id, registry.calls id = .returned (.closed token .removed)

def Sound (registry : Registry) (id : Nat) : Phase → Prop
  | .waiting task => Initial task
  | .holding (.exchange _ current) =>
      registry.holder = some id ∧ current = registry.counter
  | .holding _ => registry.holder = some id
  | .cloned token _ bundle => registry.Opened bundle token
  | .returned (.opened bundle token) =>
      registry.handles token = some bundle ∨ registry.Removed token
  | .returned (.openFailed .exhausted) =>
      Usize.checkedAdd registry.counter 1 = none
  | .returned (.used token use answer) =>
      ∃ bundle, registry.Opened bundle token ∧ answer = use.answer bundle
  | .returned (.closed token .removed) =>
      registry.handles token = none ∧ ∃ bundle, registry.Opened bundle token
  | .returned (.closed token .null) => token = 0
  | _ => True

structure Invariant (registry : Registry) : Prop where
  sound : ∀ id, registry.Sound id (registry.calls id)
  positive : 0 < registry.counter
  tickets : Tickets registry.counter fun id => (registry.calls id).token?
  nonzero : ∀ id, ∀ token ∈ (registry.calls id).token?, 0 < token
  live : ∀ token bundle, registry.handles token = some bundle →
    registry.Opened bundle token
  once : Unshared fun id => (registry.calls id).removal?

theorem removal_eq {phase : Phase} {token : Nat}
    (member : token ∈ phase.removal?) :
    phase = .returned (.closed token .removed) := by
  unfold Phase.removal? at member
  split at member <;> simp_all

theorem Invariant.token_eq {registry : Registry} (holds : registry.Invariant)
    {token first second : Nat} (inFirst : token ∈ (registry.calls first).token?)
    (inSecond : token ∈ (registry.calls second).token?) : first = second :=
  holds.tickets.unshared token first second inFirst inSecond

theorem Invariant.removal_unique {registry : Registry}
    (holds : registry.Invariant) {token first second : Nat}
    (inFirst : registry.calls first = .returned (.closed token .removed))
    (inSecond : registry.calls second = .returned (.closed token .removed)) :
    first = second := by
  apply holds.once token first second
  · simp [inFirst, Phase.removal?]
  · simp [inSecond, Phase.removal?]

theorem Sound.holder {registry : Registry} {id : Nat} {task : Task}
    (sound : registry.Sound id (.holding task)) :
    registry.holder = some id := by
  cases task with
  | exchange bundle current => exact sound.1
  | _ => exact sound

/-- A returned call stays as it is. -/
theorem Opened.setPhase {registry : Registry} {bundle : SnapshotBundle}
    {token id : Nat} {phase : Phase} (opened : registry.Opened bundle token)
    (active : ¬ (registry.calls id).Returned) :
    (registry.setPhase id phase).Opened bundle token := by
  obtain ⟨opener, returned⟩ := opened
  refine ⟨opener, ?_⟩
  rw [setPhase_calls_other registry phase, returned]
  intro same
  subst same
  exact active (by rw [returned]; trivial)

theorem Removed.setPhase {registry : Registry} {token id : Nat} {phase : Phase}
    (removed : registry.Removed token)
    (active : ¬ (registry.calls id).Returned) :
    (registry.setPhase id phase).Removed token := by
  obtain ⟨closer, returned⟩ := removed
  refine ⟨closer, ?_⟩
  rw [setPhase_calls_other registry phase, returned]
  intro same
  subst same
  exact active (by rw [returned]; trivial)

/-- What a call claims outlives the steps of others, as long as they leave the
lock and the counter of its holder alone, and the entries that matter to it. -/
theorem Sound.transport {registry next : Registry} {id : Nat} {phase : Phase}
    (sound : registry.Sound id phase)
    (opened : ∀ bundle token, registry.Opened bundle token →
      next.Opened bundle token)
    (removed : ∀ token, registry.Removed token → next.Removed token)
    (counter : registry.counter ≤ next.counter)
    (held : registry.holder = some id →
      next.holder = some id ∧ next.counter = registry.counter)
    (kept : ∀ bundle token, phase = .returned (.opened bundle token) →
      registry.handles token = some bundle →
        next.handles token = some bundle ∨ next.Removed token)
    (gone : ∀ token, phase = .returned (.closed token .removed) →
      registry.handles token = none → next.handles token = none) :
    next.Sound id phase := by
  cases phase with
  | idle => trivial
  | waiting task => exact sound
  | holding task =>
      obtain ⟨holder, same⟩ := held sound.holder
      cases task with
      | exchange bundle current => exact ⟨holder, sound.2.trans same.symm⟩
      | _ => exact holder
  | cloned token use bundle => exact opened bundle token sound
  | returned outcome =>
      cases outcome with
      | opened bundle token =>
          rcases sound with live | closed
          · exact kept bundle token rfl live
          · exact .inr (removed token closed)
      | openFailed error =>
          cases error with
          | exhausted =>
              simp only [Sound, Usize.checkedAdd] at sound ⊢
              split at sound
              · contradiction
              · exact if_neg (by omega)
          | _ => trivial
      | used token use answer =>
          obtain ⟨bundle, opener, answered⟩ := sound
          exact ⟨bundle, opened bundle token opener, answered⟩
      | useFailed => trivial
      | closed token closing =>
          cases closing with
          | removed =>
              obtain ⟨dead, bundle, opener⟩ := sound
              exact ⟨gone token rfl dead, bundle, opened bundle token opener⟩
          | null => exact sound
          | notLive => trivial

/-- Moving one call, after changing whatever else the step changes. -/
theorem Invariant.moved {registry base : Registry} (holds : registry.Invariant)
    {id : Nat} {phase : Phase} (calls : base.calls = registry.calls)
    (active : ¬ (registry.calls id).Returned)
    (counter : registry.counter ≤ base.counter)
    (held : ∀ other ≠ id, registry.holder = some other →
      base.holder = some other ∧ base.counter = registry.counter)
    (kept : ∀ bundle token, registry.handles token = some bundle →
      base.handles token = some bundle ∨
        (base.setPhase id phase).Removed token)
    (gone : ∀ token, registry.Removed token →
      registry.handles token = none → base.handles token = none)
    (live : ∀ token bundle, base.handles token = some bundle →
      (base.setPhase id phase).Opened bundle token)
    (sound : (base.setPhase id phase).Sound id phase)
    (tickets : Tickets base.counter fun other =>
      ((base.setPhase id phase).calls other).token?)
    (nonzero : ∀ token ∈ phase.token?, 0 < token)
    (once : ∀ token ∈ phase.removal?, ¬ registry.Removed token) :
    (base.setPhase id phase).Invariant where
  sound := by
    intro other
    by_cases same : other = id
    · subst other
      rwa [setPhase_calls_same]
    · rw [setPhase_calls_other base phase same, calls]
      refine (holds.sound other).transport ?_ ?_ counter (held other same) ?_ ?_
      · intro bundle token opened
        exact Opened.setPhase (by rwa [Opened, calls]) (by rwa [calls])
      · intro token removed
        exact Removed.setPhase (by rwa [Removed, calls]) (by rwa [calls])
      · intro bundle token _ entry
        exact kept bundle token entry
      · intro token closed dead
        exact gone token ⟨other, closed⟩ dead
  positive := Nat.lt_of_lt_of_le holds.positive counter
  tickets := tickets
  nonzero := by
    intro other token member
    by_cases same : other = id
    · subst other
      rw [setPhase_calls_same] at member
      exact nonzero token member
    · rw [setPhase_calls_other base phase same, calls] at member
      exact holds.nonzero other token member
  live := live
  once := by
    apply holds.once.relabel id
    · intro other different
      rw [setPhase_calls_other base phase different, calls]
    · intro token member other removing
      rw [setPhase_calls_same] at member
      exact (once token member ⟨other, removal_eq removing⟩).elim

/-- A call that takes no token leaves the others theirs. -/
theorem Invariant.kept {registry base : Registry} (holds : registry.Invariant)
    {id : Nat} {phase : Phase} (calls : base.calls = registry.calls)
    (kept : ∀ token ∈ phase.token?, token ∈ (registry.calls id).token?) :
    Tickets registry.counter fun other =>
      ((base.setPhase id phase).calls other).token? := by
  apply holds.tickets.keep id
  · intro other different
    rw [setPhase_calls_other base phase different, calls]
  · intro token member
    rw [setPhase_calls_same] at member
    exact kept token member

/-- The steps that leave the entries and the counter alone. -/
theorem Invariant.quiet {registry : Registry} (holds : registry.Invariant)
    {id : Nat} {phase : Phase} {holder : Option Nat}
    (active : ¬ (registry.calls id).Returned)
    (held : ∀ other ≠ id, registry.holder = some other → holder = some other)
    (sound : Sound { registry with holder } id phase)
    (noToken : phase.token? = none) (noRemoval : phase.removal? = none) :
    ({ registry with holder }.setPhase id phase).Invariant := by
  have opened : ∀ bundle token, registry.Opened bundle token →
      ({ registry with holder }.setPhase id phase).Opened bundle token :=
    fun bundle token opener => Opened.setPhase opener active
  have removed : ∀ token, registry.Removed token →
      ({ registry with holder }.setPhase id phase).Removed token :=
    fun token closer => Removed.setPhase closer active
  refine @Invariant.moved registry { registry with holder } holds id phase rfl
    active (Nat.le_refl _)
    (fun other different holds => ⟨held other different holds, rfl⟩)
    (fun _ _ entry => .inl entry) (fun _ _ dead => dead)
    (fun token bundle entry => opened bundle token (holds.live _ _ entry))
    ?_ (holds.kept rfl (by simp [noToken])) (by simp [noToken])
    (by simp [noRemoval])
  exact sound.transport opened removed (Nat.le_refl _)
    (fun held => ⟨held, rfl⟩) (fun _ _ _ entry => .inl entry)
    (fun _ _ dead => dead)

theorem begun_sound (registry : Registry) (id : Nat) {phase : Phase}
    (begins : Begins phase) : registry.Sound id phase := by
  unfold Begins at begins
  split at begins
  · exact begins
  · trivial
  · rename_i error
    cases error with
    | exhausted => contradiction
    | _ => trivial
  · obtain ⟨rfl, null⟩ := begins
    exact null
  · contradiction

theorem begins_token {phase : Phase} (begins : Begins phase) :
    phase.token? = none := by
  unfold Begins at begins
  split at begins <;> first | rfl | contradiction

theorem begins_removal {phase : Phase} (begins : Begins phase) :
    phase.removal? = none := by
  unfold Begins at begins
  split at begins <;> first | rfl | contradiction | (rw [begins.1]; rfl)

theorem initial_sound {registry : Registry} {id : Nat} {task : Task}
    (initial : Initial task) (holder : registry.holder = some id) :
    registry.Sound id (.holding task) := by
  cases task with
  | exchange | insert => contradiction
  | _ => exact holder

theorem initial_token {task : Task} (initial : Initial task) :
    (Phase.holding task).token? = none := by
  cases task <;> first | rfl | contradiction

theorem Invariant.begun {registry : Registry} (holds : registry.Invariant)
    {id : Nat} {phase : Phase} (before : registry.calls id = .idle)
    (begins : Begins phase) : (registry.setPhase id phase).Invariant :=
  holds.quiet (by rw [before]; exact not_false) (fun _ _ held => held)
    (begun_sound registry id begins) (begins_token begins)
    (begins_removal begins)

theorem Invariant.acquired {registry : Registry} (holds : registry.Invariant)
    {id : Nat} {task : Task} (before : registry.calls id = .waiting task)
    (free : registry.holder = none) :
    ({ registry with holder := some id }.setPhase id
      (.holding task)).Invariant := by
  have initial := holds.sound id
  rw [before] at initial
  refine holds.quiet (by rw [before]; exact not_false) ?_
    (initial_sound initial rfl) (initial_token initial) rfl
  intro other _ held
  rw [free] at held
  contradiction

theorem Invariant.holder_eq {registry : Registry} (holds : registry.Invariant)
    {id : Nat} {task : Task} (before : registry.calls id = .holding task) :
    registry.holder = some id := by
  have holding := holds.sound id
  rw [before] at holding
  exact holding.holder

/-- No other call holds the lock then. -/
theorem Invariant.not_held {registry : Registry} (holds : registry.Invariant)
    {id other : Nat} {task : Task}
    (before : registry.calls id = .holding task) (different : other ≠ id) :
    registry.holder ≠ some other := by
  intro held
  apply different
  exact Option.some.inj (held.symm.trans (holds.holder_eq before))

/-- The call under the lock goes on, or drops the lock. -/
theorem Invariant.held {registry : Registry} (holds : registry.Invariant)
    {id : Nat} {task : Task} (before : registry.calls id = .holding task)
    {phase : Phase} {holder : Option Nat}
    (sound : Sound { registry with holder } id phase)
    (noToken : phase.token? = none) (noRemoval : phase.removal? = none) :
    ({ registry with holder }.setPhase id phase).Invariant := by
  refine holds.quiet (by rw [before]; exact not_false) ?_ sound noToken
    noRemoval
  intro other different held
  exact absurd held (holds.not_held before different)

theorem Invariant.taken {registry : Registry} (holds : registry.Invariant)
    {id : Nat} {bundle : SnapshotBundle} {current next : Nat}
    (before : registry.calls id = .holding (.exchange bundle current))
    (room : Usize.checkedAdd current 1 = some next)
    (same : registry.counter = current) :
    ({ registry with counter := next }.setPhase id
      (.holding (.insert bundle current))).Invariant := by
  obtain ⟨rfl, _⟩ := Usize.checkedAdd_eq_some.mp room
  refine holds.moved rfl (by rw [before]; exact not_false) ?_ ?_
    (fun _ _ entry => .inl entry) (fun _ _ dead => dead) ?_
    (holds.holder_eq before) ?_ ?_ (by simp [Phase.removal?])
  · exact same ▸ Nat.le_succ current
  · intro other different held
    exact absurd held (holds.not_held before different)
  · intro token entry live
    exact Opened.setPhase (holds.live token entry live)
      (by rw [before]; exact not_false)
  · subst same
    apply holds.tickets.draw id
    · intro other different
      rw [setPhase_calls_other _ _ different]
    · rw [setPhase_calls_same]
      rfl
  · rintro token ⟨⟩
    exact same ▸ holds.positive

theorem Invariant.inserted {registry : Registry} (holds : registry.Invariant)
    {id : Nat} {bundle : SnapshotBundle} {token : Nat}
    (before : registry.calls id = .holding (.insert bundle token)) :
    ({ registry with
        handles := Function.update registry.handles token
          (some bundle) }.release id
      (.returned (.opened bundle token))).Invariant := by
  have taken : token ∈ (registry.calls id).token? := by
    rw [before]
    rfl
  -- Nobody else has this token, so nobody has opened or removed it before.
  have unopened (other : SnapshotBundle) : ¬ registry.Opened other token := by
    intro given
    obtain ⟨opener, returned⟩ := given
    have same := holds.token_eq (by rw [returned]; rfl) taken
    rw [same, before] at returned
    contradiction
  have active : ¬ (registry.calls id).Returned := by
    rw [before]
    exact not_false
  rw [release]
  refine holds.moved rfl active (Nat.le_refl _) ?_ ?_ ?_ ?_ ?_
    (holds.kept rfl ?_) ?_ (by simp [Phase.removal?])
  · intro other different held
    exact absurd held (holds.not_held before different)
  · intro other entry live
    by_cases same : entry = token
    · subst entry
      exact (unopened other (holds.live token other live)).elim
    · exact .inl (by simpa [same] using live)
  · rintro entry ⟨closer, returned⟩ dead
    have removed := holds.sound closer
    rw [returned] at removed
    obtain ⟨_, other, opened⟩ := removed
    have different : entry ≠ token := by
      intro same
      subst same
      exact unopened other opened
    simpa [different] using dead
  · intro entry other live
    by_cases same : entry = token
    · subst entry
      simp only [Function.update_self, Option.some.injEq] at live
      exact ⟨id, by simp [live]⟩
    · simp only [ne_eq, same, not_false_eq_true, Function.update_of_ne] at live
      exact Opened.setPhase (holds.live entry other live) active
  · exact .inl (by simp [setPhase])
  · rintro entry ⟨⟩
    exact taken
  · rintro entry ⟨⟩
    exact holds.nonzero id token taken

theorem Invariant.removed {registry : Registry} (holds : registry.Invariant)
    {id token : Nat} {bundle : SnapshotBundle}
    (before : registry.calls id = .holding (.remove token))
    (live : registry.handles token = some bundle) :
    ({ registry with
        handles := Function.update registry.handles token none }.release id
      (.returned (.closed token .removed))).Invariant := by
  have active : ¬ (registry.calls id).Returned := by
    rw [before]
    exact not_false
  rw [release]
  refine holds.moved rfl active (Nat.le_refl _) ?_ ?_ ?_ ?_ ?_
    (holds.kept rfl (by simp [Phase.token?])) (by simp [Phase.token?]) ?_
  · intro other different held
    exact absurd held (holds.not_held before different)
  · intro other entry found
    by_cases same : entry = token
    · subst entry
      exact .inr ⟨id, by simp⟩
    · exact .inl (by simpa [same] using found)
  · intro entry _ dead
    by_cases same : entry = token
    · simp [same]
    · simpa [same] using dead
  · intro entry other found
    by_cases same : entry = token
    · simp [same] at found
    · simp only [ne_eq, same, not_false_eq_true, Function.update_of_ne] at found
      exact Opened.setPhase (holds.live entry other found) active
  · exact ⟨by simp [setPhase], bundle,
      Opened.setPhase (holds.live token bundle live) active⟩
  · rintro entry ⟨⟩ ⟨closer, returned⟩
    have removed := holds.sound closer
    rw [returned] at removed
    exact Option.some_ne_none bundle (live.symm.trans removed.1)

theorem invariant_start : start.Invariant where
  sound := fun _ => trivial
  positive := Nat.one_pos
  tickets := ⟨by simp [start, Phase.token?],
    by simp [Unshared, start, Phase.token?]⟩
  nonzero := by simp [start, Phase.token?]
  live := by simp [start]
  once := by simp [Unshared, start, Phase.removal?]

theorem invariant_effect {registry next : Registry}
    (holds : registry.Invariant) (effect : Effect registry next) :
    next.Invariant := by
  have sound := holds.sound
  cases effect with
  | begun id phase before begins => exact holds.begun before begins
  | acquired id task before free => exact holds.acquired before free
  | refused id bundle error before =>
      exact holds.held before trivial rfl rfl
  | reserved id bundle before =>
      exact holds.held before (holds.holder_eq before) rfl rfl
  | observed id bundle task before =>
      exact holds.held before ⟨holds.holder_eq before, rfl⟩ rfl rfl
  | exhausted id bundle current before full =>
      have holding := sound id
      rw [before] at holding
      exact holds.held before (holding.2 ▸ full) rfl rfl
  | taken id bundle current next before room same =>
      exact holds.taken before room same
  | inserted id bundle token before => exact holds.inserted before
  | found id token use bundle before live =>
      exact holds.held before (holds.live token bundle live) rfl rfl
  | missed id token use before dead => exact holds.held before trivial rfl rfl
  | removed id token bundle before live => exact holds.removed before live
  | absent id token before dead => exact holds.held before trivial rfl rfl
  | answered id token use bundle before =>
      have opened := sound id
      rw [before] at opened
      exact holds.quiet (by rw [before]; exact not_false)
        (fun _ _ held => held) ⟨bundle, opened, rfl⟩ rfl rfl

/-! Runs. -/

theorem reachable_invariant {actions : List Action} {registry : Registry}
    (run : Run Step start actions registry) : registry.Invariant :=
  run.invariant Invariant (fun _ => True)
    (fun _ _ _ holds _ stepped => invariant_effect holds (step_effect stepped))
    invariant_start (fun _ _ => trivial)

/-- A step moves one call, and never one that has returned. -/
theorem Effect.moves {registry next : Registry}
    (effect : Effect registry next) :
    ∃ id phase, ¬ (registry.calls id).Returned ∧
      next.calls = Function.update registry.calls id phase := by
  cases effect with
  | begun _ _ before | acquired _ _ before | refused _ _ _ before
  | reserved _ _ before | observed _ _ _ before | exhausted _ _ _ before
  | taken _ _ _ _ before | inserted _ _ _ before | found _ _ _ _ before
  | missed _ _ _ before | removed _ _ _ before | absent _ _ before
  | answered _ _ _ _ before =>
      exact ⟨_, _, by rw [before]; exact not_false, rfl⟩

theorem returned_step {registry next : Registry} {id : Nat} {outcome : Outcome}
    (effect : Effect registry next)
    (returned : registry.calls id = .returned outcome) :
    next.calls id = .returned outcome := by
  obtain ⟨mover, phase, active, calls⟩ := effect.moves
  rw [calls, Function.update_of_ne _ _ _, returned]
  intro same
  subst same
  exact active (by rw [returned]; trivial)

theorem returned_run {registry final : Registry} {actions : List Action}
    {id : Nat} {outcome : Outcome} (run : Run Step registry actions final)
    (returned : registry.calls id = .returned outcome) :
    final.calls id = .returned outcome :=
  run.invariant (fun current => current.calls id = .returned outcome)
    (fun _ => True)
    (fun _ _ _ returned _ stepped =>
      returned_step (step_effect stepped) returned)
    returned (fun _ _ => trivial)

/-- Only the exchange hands out a token. -/
theorem room_of_taken {registry next : Registry} (holds : registry.Invariant)
    (effect : Effect registry next) {id : Nat}
    (untaken : (registry.calls id).token? = none)
    (taken : (next.calls id).token? ≠ none) :
    Usize.checkedAdd registry.counter 1 ≠ none := by
  have other {mover : Nat} {phase : Phase} {base : Registry}
      (calls : base.calls = registry.calls) (none : phase.token? = none) :
      ((base.setPhase mover phase).calls id).token? = .none := by
    by_cases same : id = mover
    · subst id
      rwa [setPhase_calls_same]
    · rwa [setPhase_calls_other base phase same, calls]
  cases effect with
  | begun mover phase before begins =>
      exact (taken (other rfl (begins_token begins))).elim
  | acquired mover task before free =>
      have initial := holds.sound mover
      rw [before] at initial
      exact (taken (other rfl (initial_token initial))).elim
  | taken mover bundle current next before room same =>
      by_cases moved : id = mover
      · subst id
        rw [same, room]
        exact Option.some_ne_none next
      · rw [setPhase_calls_other _ _ moved] at taken
        exact (taken untaken).elim
  | inserted mover bundle token before =>
      by_cases moved : id = mover
      · subst id
        rw [before] at untaken
        contradiction
      · rw [release, setPhase_calls_other _ _ moved] at taken
        exact (taken untaken).elim
  | refused | reserved | observed | exhausted | found | missed | removed | absent
  | answered => exact (taken (other rfl rfl)).elim

/-- Once a call has reported exhaustion, no call takes a token. -/
theorem untaken_run {registry final : Registry} (holds : registry.Invariant)
    {actions : List Action} (run : Run Step registry actions final)
    {reporter id : Nat}
    (reported : registry.calls reporter = .returned (.openFailed .exhausted))
    (untaken : (registry.calls id).token? = none) :
    (final.calls id).token? = none := by
  refine (run.invariant (fun current => current.Invariant ∧
      current.calls reporter = .returned (.openFailed .exhausted) ∧
      (current.calls id).token? = none) (fun _ => True) ?_
    ⟨holds, reported, untaken⟩ (fun _ _ => trivial)).2.2
  rintro current action next ⟨holds, reported, untaken⟩ _ stepped
  have effect := step_effect stepped
  refine ⟨invariant_effect holds effect, returned_step effect reported, ?_⟩
  by_contra taken
  have full := holds.sound reporter
  rw [reported] at full
  exact room_of_taken holds effect untaken taken full

theorem exhausted_step {registry next : Registry} (holds : registry.Invariant)
    {reporter id : Nat} {bundle : SnapshotBundle} {current : Nat}
    (reported : registry.calls reporter = .returned (.openFailed .exhausted))
    (allocating : registry.calls id = .holding (.exchange bundle current))
    (stepped : Step registry (.advance id) next ∨
      Step registry (.exchangeFails id) next) :
    next.calls id = .returned (.openFailed .exhausted) := by
  have full := holds.sound reporter
  rw [reported] at full
  have observed := holds.sound id
  rw [allocating] at observed
  have failed (spurious : Bool) : registry.exchange id bundle current spurious =
      registry.release id (.returned (.openFailed .exhausted)) := by
    rw [exchange, compareExchange_exhausted.mpr (observed.2 ▸ full)]
  rcases stepped with stepped | stepped
  · simp only [Step, step, advance, allocating, perform, failed,
      Option.some.injEq] at stepped
    rw [← stepped, release_calls_same]
  · simp only [Step, step, allocating, failed, Option.some.injEq] at stepped
    rw [← stepped, release_calls_same]

/-- A close that finds an opened handle gone has another close to thank. -/
theorem removed_of_notLive {registry next : Registry}
    (holds : registry.Invariant) (effect : Effect registry next)
    {bundle : SnapshotBundle} {token id : Nat}
    (opened : registry.Opened bundle token)
    (pending : registry.calls id ≠ .returned (.closed token .notLive))
    (closed : next.calls id = .returned (.closed token .notLive)) :
    registry.Removed token := by
  have other {mover : Nat} {phase : Phase} {base : Registry}
      (calls : base.calls = registry.calls)
      (closed : (base.setPhase mover phase).calls id =
        .returned (.closed token .notLive)) :
      phase = .returned (.closed token .notLive) := by
    by_cases same : id = mover
    · subst id
      rwa [setPhase_calls_same] at closed
    · rw [setPhase_calls_other base phase same, calls] at closed
      exact (pending closed).elim
  cases effect with
  | begun mover phase before begins =>
      rw [other rfl closed] at begins
      exact absurd begins.1 (by decide)
  | absent mover handle before dead =>
      have same := other rfl closed
      simp only [Phase.returned.injEq, Outcome.closed.injEq, and_true] at same
      obtain ⟨opener, returned⟩ := opened
      have kept := holds.sound opener
      rw [returned] at kept
      rw [same] at dead
      exact kept.resolve_left (by simp [dead])
  | acquired | refused | reserved | observed | exhausted | taken | inserted
  | found | missed | removed | answered =>
      exact absurd (other rfl closed) (by simp)

theorem removed_run {registry final : Registry} (holds : registry.Invariant)
    {actions : List Action} (run : Run Step registry actions final)
    {bundle : SnapshotBundle} {token id : Nat}
    (opened : registry.Opened bundle token)
    (pending : ¬ (registry.calls id).Returned)
    (closed : final.calls id = .returned (.closed token .notLive)) :
    final.Removed token := by
  refine (run.invariant (fun current => current.Invariant ∧
      current.Opened bundle token ∧
      (current.calls id = .returned (.closed token .notLive) →
        current.Removed token)) (fun _ => True) ?_
    ⟨holds, opened, ?_⟩ (fun _ _ => trivial)).2.2 closed
  · rintro current action next ⟨holds, ⟨opener, returned⟩, removed⟩ _ stepped
    have effect := step_effect stepped
    refine ⟨invariant_effect holds effect,
      ⟨opener, returned_step effect returned⟩, ?_⟩
    intro closed
    have gone : current.Removed token := by
      by_cases already : current.calls id = .returned (.closed token .notLive)
      · exact removed already
      · exact removed_of_notLive holds effect ⟨opener, returned⟩ already closed
    obtain ⟨closer, removing⟩ := gone
    exact ⟨closer, returned_step effect removing⟩
  · intro closed
    rw [closed] at pending
    exact (pending trivial).elim

/-- A handle that a close removed is gone for every later lookup. -/
theorem dead_lookup {registry next : Registry} (holds : registry.Invariant)
    {closer id token : Nat} {use : Use}
    (removed : registry.calls closer = .returned (.closed token .removed))
    (validating : registry.calls id = .holding (.lookup token use))
    (stepped : Step registry (.advance id) next) :
    next.calls id = .returned (.useFailed token use .notLive) := by
  have dead := holds.sound closer
  rw [removed] at dead
  simp only [Step, step, advance, validating, perform_lookup_dead dead.1,
    Option.some.injEq] at stepped
  rw [← stepped, release_calls_same]

/-- Whatever the order of the calls: tokens are never zero and never shared, an
answer comes from the snapshot whose open returned the handle, exhaustion lasts,
a removed handle stays dead, and one close removes it. -/
theorem snapshot_handles_safe {actions : List Action} {middle : Registry}
    (run : Run Step start actions middle) :
    (∀ first bundle token,
      middle.calls first = .returned (.opened bundle token) →
      token ≠ 0 ∧ ∀ second other,
        middle.calls second = .returned (.opened other token) →
          second = first) ∧
    (∀ id token use answer,
      middle.calls id = .returned (.used token use answer) →
      ∃ opener bundle,
        middle.calls opener = .returned (.opened bundle token) ∧
        answer = use.answer bundle) ∧
    ∀ later final, Run Step middle later final →
      (∀ reporter, middle.calls reporter =
          .returned (.openFailed .exhausted) →
        (∀ id bundle current next,
          final.calls id = .holding (.exchange bundle current) →
          Step final (.advance id) next ∨ Step final (.exchangeFails id) next →
          next.calls id = .returned (.openFailed .exhausted)) ∧
        ∀ id bundle token, (middle.calls id).token? = none →
          final.calls id ≠ .returned (.opened bundle token)) ∧
      (∀ closer token, middle.calls closer =
          .returned (.closed token .removed) →
        ∀ id use next, final.calls id = .holding (.lookup token use) →
          Step final (.advance id) next →
          next.calls id = .returned (.useFailed token use .notLive)) ∧
      ∀ opener bundle token closer closing,
        middle.calls opener = .returned (.opened bundle token) →
        ¬ (middle.calls closer).Returned →
        final.calls closer = .returned (.closed token closing) →
        ∃! remover, final.calls remover =
          .returned (.closed token .removed) := by
  have holds := reachable_invariant run
  refine ⟨?_, ?_, ?_⟩
  · intro first bundle token opened
    have taken : token ∈ (middle.calls first).token? := by
      rw [opened]
      rfl
    refine ⟨Nat.ne_of_gt (holds.nonzero first token taken), ?_⟩
    intro second other reopened
    exact holds.token_eq (by rw [reopened]; rfl) taken
  · intro id token use answer used
    have sound := holds.sound id
    rw [used] at sound
    obtain ⟨bundle, ⟨opener, opened⟩, answered⟩ := sound
    exact ⟨opener, bundle, opened, answered⟩
  · intro later final resumed
    have after : final.Invariant := resumed.invariant Invariant (fun _ => True)
      (fun _ _ _ holds _ stepped =>
        invariant_effect holds (step_effect stepped))
      holds (fun _ _ => trivial)
    refine ⟨?_, ?_, ?_⟩
    · intro reporter reported
      refine ⟨?_, ?_⟩
      · intro id bundle current next allocating stepped
        exact exhausted_step after (returned_run resumed reported) allocating
          stepped
      · intro id bundle token untaken opened
        have none := untaken_run holds resumed reported untaken
        rw [opened] at none
        contradiction
    · intro closer token removed id use next validating stepped
      exact dead_lookup after (returned_run resumed removed) validating stepped
    · intro opener bundle token closer closing opened pending closed
      have removed : final.Removed token := by
        cases closing with
        | removed => exact ⟨closer, closed⟩
        | notLive => exact removed_run holds resumed ⟨opener, opened⟩ pending closed
        | null =>
            have null := after.sound closer
            rw [closed] at null
            have taken := holds.nonzero opener token (by rw [opened]; rfl)
            exact absurd null (Nat.ne_of_gt taken)
      obtain ⟨remover, removing⟩ := removed
      refine ⟨remover, removing, ?_⟩
      intro other alsoRemoving
      exact after.removal_unique alsoRemoving removing

theorem oneByte_bounded : [(7 : UInt8)].length < 2 ^ 63 := by
  decide

def oneByte : SnapshotBundle :=
  ⟨⟨"raw", "memory.bin"⟩, [.new ⟨0⟩ ⟨[7], oneByte_bounded⟩]⟩

def openRaw : OpenRequest := ⟨some (.ok "memory.bin"), 0, 0, false⟩

def readByte : Use := .read ⟨0⟩ [0] false

/-- Call 1 reads from a snapshot that call 2 closes under it; call 3 comes too
late. -/
theorem snapshot_read_past_close :
    ∃ middle final : Registry,
      Run Step start
        [.beginOpen 0 openRaw (.ok ()) (fun _ _ => .ok oneByte), .advance 0,
          .advance 0, .advance 0, .exchangeFails 0, .advance 0, .advance 0,
          .beginUse 1 1 readByte, .advance 1, .advance 1, .beginClose 2 1,
          .advance 2, .advance 2, .advance 1] middle ∧
      Run Step middle [.beginUse 3 1 readByte, .advance 3] final ∧
      middle.calls 1 = .returned (.used 1 readByte
        ⟨.ok, noError, .bytes [7]⟩) ∧
      (∃ opener bundle, middle.calls opener = .returned (.opened bundle 1) ∧
        ⟨.ok, noError, .bytes [7]⟩ = readByte.answer bundle) ∧
      ∀ next, Step final (.advance 3) next →
        next.calls 3 = .returned (.useFailed 1 readByte .notLive) := by
  obtain ⟨middle, final, run, resumed, used, removed, validating⟩ :
      ∃ middle final : Registry,
        Run Step start
          [.beginOpen 0 openRaw (.ok ()) (fun _ _ => .ok oneByte), .advance 0,
            .advance 0, .advance 0, .exchangeFails 0, .advance 0, .advance 0,
            .beginUse 1 1 readByte, .advance 1, .advance 1, .beginClose 2 1,
            .advance 2, .advance 2, .advance 1] middle ∧
        Run Step middle [.beginUse 3 1 readByte, .advance 3] final ∧
        middle.calls 1 = .returned (.used 1 readByte
          ⟨.ok, noError, .bytes [7]⟩) ∧
        middle.calls 2 = .returned (.closed 1 .removed) ∧
        final.calls 3 = .holding (.lookup 1 readByte) :=
    ⟨_, _, .cons rfl (.cons rfl (.cons rfl (.cons rfl (.cons rfl (.cons rfl
      (.cons rfl (.cons rfl (.cons rfl (.cons rfl (.cons rfl (.cons rfl
        (.cons rfl (.cons rfl .nil))))))))))))),
      .cons rfl (.cons rfl .nil), rfl, rfl, rfl⟩
  obtain ⟨_, answers, later⟩ := snapshot_handles_safe run
  obtain ⟨_, dead, _⟩ := later _ final resumed
  exact ⟨middle, final, run, resumed, used, answers 1 1 readByte _ used,
    fun next stepped => dead 2 1 removed 3 readByte next validating stepped⟩

end Registry

end LibVmi.Ffi
