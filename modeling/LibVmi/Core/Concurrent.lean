import LibVmi.Core.Coherence
import LibVmi.Data.Runs

namespace LibVmi.Core.Concurrent

open Data Arch VmiSession

/-! A session shared by any number of calls. The cache lock is held for a lookup,
an insertion or a clear, never across two of them, so these are the steps that
other calls see. -/

structure Query where
  translator : AddressTranslator
  root : TranslationRoot
  address : Gva

namespace Query

def page (query : Query) : UInt64 := pageBase query.address.raw

def key (query : Query) : CacheKey :=
  (query.translator.cacheTag, query.root.raw, query.page)

def finish (query : Query) (value : Translation) : Result Translation := do
  let pageOffset ← okOr (checkedSub query.address.raw query.page)
    (.backend "virtual page offset underflow")
  offsetTranslation value pageOffset query.address

end Query

/-- Where a call stands. A walked translation remembers how many memory writes
the session had seen when it walked; the code keeps no such number. -/
inductive Phase where
  | idle
  | lookup (query : Query)
  | walk (query : Query)
  | insert (query : Query) (value : Translation) (seen : Nat)
  | translated (query : Query) (result : Result Translation)
  | write (address : Gpa) (data : List UInt8)
  | clear (result : Result Unit)
  | written (result : Result Unit)

/-- A `write_bytes` call that has begun and not returned. -/
def Phase.Writing : Phase → Prop
  | .write _ _ => True
  | .clear _ => True
  | _ => False

structure Shared (σ : Type) where
  session : σ
  translations : TranslationCache
  calls : Nat → Phase
  writes : Nat

inductive Action where
  | beginTranslate (id : Nat) (query : Query)
  | beginWrite (id : Nat) (address : Gpa) (data : List UInt8)
  | advance (id : Nat)

namespace Shared

variable {σ : Type}

def start (attached : VmiSession σ) : Shared σ :=
  ⟨attached.session, attached.translations, fun _ => .idle, 0⟩

def setPhase (shared : Shared σ) (id : Nat) (phase : Phase) : Shared σ :=
  { shared with calls := Function.update shared.calls id phase }

@[simp] theorem setPhase_calls_same (shared : Shared σ) (id : Nat)
    (phase : Phase) : (shared.setPhase id phase).calls id = phase := by
  simp [setPhase]

@[simp] theorem setPhase_setPhase (shared : Shared σ) (id : Nat)
    (first second : Phase) :
    (shared.setPhase id first).setPhase id second =
      shared.setPhase id second := by
  simp [setPhase]

@[simp] theorem setPhase_translations (shared : Shared σ) (id : Nat)
    (phase : Phase) :
    (shared.setPhase id phase).translations = shared.translations := rfl

@[simp] theorem setPhase_session (shared : Shared σ) (id : Nat)
    (phase : Phase) :
    (shared.setPhase id phase).session = shared.session := rfl

@[simp] theorem setPhase_writes (shared : Shared σ) (id : Nat)
    (phase : Phase) :
    (shared.setPhase id phase).writes = shared.writes := rfl

theorem setPhase_calls_other (shared : Shared σ) {id other : Nat}
    (phase : Phase) (different : other ≠ id) :
    (shared.setPhase id phase).calls other = shared.calls other := by
  simp [setPhase, different]

/-- The session as one caller would find it. -/
def view (shared : Shared σ) : VmiSession σ :=
  ⟨shared.session, shared.translations⟩

def Quiet (shared : Shared σ) : Prop :=
  ∀ id, ¬ (shared.calls id).Writing

variable [Session σ]

def advance (shared : Shared σ) (id : Nat) : Option (Shared σ) :=
  match shared.calls id with
  | .lookup query =>
      match shared.translations.get query.key with
      | some value => some (shared.setPhase id (.translated query (query.finish value)))
      | none => some (shared.setPhase id (.walk query))
  | .walk query =>
      match walkPage shared.session query.translator query.root.raw query.page with
      | .error error =>
          some (shared.setPhase id (.translated query (.error error)))
      | .ok value =>
          some (shared.setPhase id (.insert query value shared.writes))
  | .insert query value _ =>
      some ({ shared with
          translations := shared.translations.insert query.key value }.setPhase
        id (.translated query (query.finish value)))
  | .write address data =>
      match Session.memoryWrite shared.session with
      | .error error => some (shared.setPhase id (.written (.error error)))
      | .ok _ =>
          let (session, result) := LibVmi.writeBytes shared.session address data
          some ({ shared with session, writes := shared.writes + 1 }.setPhase
            id (.clear result))
  | .clear result =>
      some ({ shared with
          translations := shared.translations.clear }.setPhase
        id (.written result))
  | _ => none

def step (shared : Shared σ) : Action → Option (Shared σ)
  | .beginTranslate id query =>
      match shared.calls id with
      | .idle => some (shared.setPhase id (.lookup query))
      | _ => none
  | .beginWrite id address data =>
      match shared.calls id with
      | .idle => some (shared.setPhase id (.write address data))
      | _ => none
  | .advance id => shared.advance id

/-- Everything a step can do to the call it moves. -/
inductive Effect (shared : Shared σ) : Action → Shared σ → Prop
  | translates (id : Nat) (query : Query)
      (before : shared.calls id = .idle) :
      Effect shared (.beginTranslate id query)
        (shared.setPhase id (.lookup query))
  | writes (id : Nat) (address : Gpa) (data : List UInt8)
      (before : shared.calls id = .idle) :
      Effect shared (.beginWrite id address data)
        (shared.setPhase id (.write address data))
  | hit (id : Nat) (query : Query) (value : Translation)
      (before : shared.calls id = .lookup query)
      (found : shared.translations.get query.key = some value) :
      Effect shared (.advance id)
        (shared.setPhase id (.translated query (query.finish value)))
  | miss (id : Nat) (query : Query)
      (before : shared.calls id = .lookup query) :
      Effect shared (.advance id) (shared.setPhase id (.walk query))
  | walkFailed (id : Nat) (query : Query) (error : VmiError)
      (before : shared.calls id = .walk query)
      (walked : walkPage shared.session query.translator query.root.raw
        query.page = .error error) :
      Effect shared (.advance id)
        (shared.setPhase id (.translated query (.error error)))
  | walked (id : Nat) (query : Query) (value : Translation)
      (before : shared.calls id = .walk query)
      (walked : walkPage shared.session query.translator query.root.raw
        query.page = .ok value) :
      Effect shared (.advance id)
        (shared.setPhase id (.insert query value shared.writes))
  | inserted (id : Nat) (query : Query) (value : Translation) (seen : Nat)
      (before : shared.calls id = .insert query value seen) :
      Effect shared (.advance id) ({ shared with
          translations := shared.translations.insert query.key value }.setPhase
        id (.translated query (query.finish value)))
  | refused (id : Nat) (address : Gpa) (data : List UInt8) (error : VmiError)
      (before : shared.calls id = .write address data)
      (unsupported : Session.memoryWrite shared.session = .error error) :
      Effect shared (.advance id)
        (shared.setPhase id (.written (.error error)))
  | stored (id : Nat) (address : Gpa) (data : List UInt8) (session : σ)
      (result : Result Unit) (before : shared.calls id = .write address data) :
      Effect shared (.advance id) ({ shared with
          session, writes := shared.writes + 1 }.setPhase id (.clear result))
  | cleared (id : Nat) (result : Result Unit)
      (before : shared.calls id = .clear result) :
      Effect shared (.advance id) ({ shared with
          translations := shared.translations.clear }.setPhase
        id (.written result))

theorem advance_effect {shared next : Shared σ} {id : Nat}
    (advanced : shared.advance id = some next) :
    Effect shared (.advance id) next := by
  unfold advance at advanced
  cases before : shared.calls id with
  | lookup query =>
      simp only [before] at advanced
      cases found : shared.translations.get query.key with
      | none =>
          simp only [found, Option.some.injEq] at advanced
          exact advanced ▸ .miss id query before
      | some value =>
          simp only [found, Option.some.injEq] at advanced
          exact advanced ▸ .hit id query value before found
  | walk query =>
      simp only [before] at advanced
      cases walked : walkPage shared.session query.translator query.root.raw
          query.page with
      | error error =>
          simp only [walked, Option.some.injEq] at advanced
          exact advanced ▸ .walkFailed id query error before walked
      | ok value =>
          simp only [walked, Option.some.injEq] at advanced
          exact advanced ▸ .walked id query value before walked
  | insert query value seen =>
      simp only [before, Option.some.injEq] at advanced
      exact advanced ▸ .inserted id query value seen before
  | write address data =>
      simp only [before] at advanced
      cases exposed : Session.memoryWrite shared.session with
      | error error =>
          simp only [exposed, Option.some.injEq] at advanced
          exact advanced ▸ .refused id address data error before exposed
      | ok _ =>
          simp only [exposed, Option.some.injEq] at advanced
          exact advanced ▸ .stored id address data _ _ before
  | clear result =>
      simp only [before, Option.some.injEq] at advanced
      exact advanced ▸ .cleared id result before
  | idle | translated | written => simp [before] at advanced

theorem step_effect {shared next : Shared σ} {action : Action}
    (stepped : shared.step action = some next) :
    Effect shared action next := by
  cases action with
  | beginTranslate id query =>
      cases before : shared.calls id <;>
        simp only [step, before, Option.some.injEq, reduceCtorEq] at stepped
      exact stepped ▸ .translates id query before
  | beginWrite id address data =>
      cases before : shared.calls id <;>
        simp only [step, before, Option.some.injEq, reduceCtorEq] at stepped
      exact stepped ▸ .writes id address data before
  | advance id => exact advance_effect stepped

/-! A call that nothing interrupts is the sequential call. -/

/-- Any interleaving at all. -/
abbrev AnyStep (shared : Shared σ) (action : Action) (next : Shared σ) : Prop :=
  shared.step action = some next

theorem translate_uninterrupted (shared : Shared σ) {id : Nat}
    (idle : shared.calls id = .idle) (query : Query) :
    ∃ count next,
      Run AnyStep shared
        (.beginTranslate id query :: List.replicate count (.advance id)) next ∧
      next.view = (shared.view.translate query.translator query.root
        query.address).1 ∧
      next.calls id = .translated query (shared.view.translate
        query.translator query.root query.address).2 := by
  obtain ⟨offset, subtracted⟩ := checkedSub_pageBase query.address.raw
  have finished (value : Translation) :
      query.finish value = offsetTranslation value offset query.address := by
    simp [Query.finish, Query.page, subtracted, okOr]
  have begun : AnyStep shared (.beginTranslate id query)
      (shared.setPhase id (.lookup query)) := by
    simp [AnyStep, step, idle]
  unfold VmiSession.translate
  simp only [subtracted]
  cases found : shared.translations.get query.key with
  | some value =>
      have looked : AnyStep (shared.setPhase id (.lookup query)) (.advance id)
          (shared.setPhase id (.translated query (query.finish value))) := by
        simp [AnyStep, step, advance, found]
      refine ⟨1, _, .cons begun (.cons looked .nil), ?_⟩
      simp only [Query.key, Query.page] at found
      simp [view, found, finished]
  | none =>
      have looked : AnyStep (shared.setPhase id (.lookup query)) (.advance id)
          (shared.setPhase id (.walk query)) := by
        simp [AnyStep, step, advance, found]
      simp only [Query.key, Query.page] at found
      cases walked : walkPage shared.session query.translator query.root.raw
          query.page with
      | error error =>
          have failed : AnyStep (shared.setPhase id (.walk query)) (.advance id)
              (shared.setPhase id (.translated query (.error error))) := by
            simp [AnyStep, step, advance, walked]
          refine ⟨2, _, .cons begun (.cons looked (.cons failed .nil)), ?_⟩
          simp only [Query.page] at walked
          simp [view, found, walked]
      | ok value =>
          have completed : AnyStep (shared.setPhase id (.walk query))
              (.advance id)
              (shared.setPhase id (.insert query value shared.writes)) := by
            simp [AnyStep, step, advance, walked]
          have inserted : AnyStep
              (shared.setPhase id (.insert query value shared.writes))
              (.advance id)
              ({ shared with
                  translations := shared.translations.insert query.key
                    value }.setPhase
                id (.translated query (query.finish value))) := by
            simp [AnyStep, step, advance, setPhase]
          refine ⟨3, _, .cons begun (.cons looked (.cons completed
            (.cons inserted .nil))), ?_⟩
          simp only [Query.page] at walked
          simp [view, found, walked, finished]
          rfl

theorem write_uninterrupted (shared : Shared σ) {id : Nat}
    (idle : shared.calls id = .idle) (address : Gpa) (data : List UInt8) :
    ∃ count next,
      Run AnyStep shared
        (.beginWrite id address data :: List.replicate count (.advance id))
        next ∧
      next.view = (shared.view.writeBytes address data).1 ∧
      next.calls id = .written (shared.view.writeBytes address data).2 := by
  have begun : AnyStep shared (.beginWrite id address data)
      (shared.setPhase id (.write address data)) := by
    simp [AnyStep, step, idle]
  unfold VmiSession.writeBytes
  cases exposed : Session.memoryWrite shared.session with
  | error error =>
      have refused : AnyStep (shared.setPhase id (.write address data))
          (.advance id) (shared.setPhase id (.written (.error error))) := by
        simp [AnyStep, step, advance, exposed]
      refine ⟨1, _, .cons begun (.cons refused .nil), ?_⟩
      simp [view, exposed]
  | ok _ =>
      cases written : LibVmi.writeBytes shared.session address data with
      | mk session result =>
          let stored : Shared σ :=
            { shared with session, writes := shared.writes + 1 }
          have wrote : AnyStep (shared.setPhase id (.write address data))
              (.advance id) (stored.setPhase id (.clear result)) := by
            simp [AnyStep, step, advance, exposed, written, stored, setPhase]
          have cleared : AnyStep (stored.setPhase id (.clear result))
              (.advance id)
              ({ stored with
                  translations := stored.translations.clear }.setPhase
                id (.written result)) := by
            simp [AnyStep, step, advance, setPhase]
          refine ⟨2, _, .cons begun (.cons wrote (.cons cleared .nil)), ?_⟩
          cases result <;>
            simp [view, exposed, written, stored, clearTranslationCache]

end Shared

/-! When an insertion is harmless. -/

def Phase.query? : Phase → Option Query
  | .lookup query | .walk query | .insert query _ _ | .translated query _ =>
      some query
  | _ => none

def Action.Known (translators : Set AddressTranslator) : Action → Prop
  | .beginTranslate _ query => query.translator ∈ translators
  | _ => True

def Action.Writes : Action → Prop
  | .beginWrite _ _ _ => True
  | _ => False

namespace Shared

variable {σ : Type} [Session σ]

/-- A `write_bytes` call that is still going to clear the cache. -/
def Invalidating (shared : Shared σ) (id : Nat) : Prop :=
  match shared.calls id with
  | .clear _ => True
  | .write _ _ => Session.memoryWrite shared.session = .ok ()
  | _ => False

/-- An insertion is timely when no memory write came between it and its own
walk, or when some call is still going to clear the cache. -/
def Timely (shared : Shared σ) : Action → Prop
  | .advance id =>
      match shared.calls id with
      | .insert _ _ seen =>
          seen = shared.writes ∨ ∃ other, shared.Invalidating other
      | _ => True
  | _ => True

/-- The steps of a run whose insertions are all timely. -/
def TimelyStep (translators : Set AddressTranslator) (shared : Shared σ)
    (action : Action) (next : Shared σ) : Prop :=
  shared.step action = some next ∧ action.Known translators ∧
    shared.Timely action

structure Invariant (translators : Set AddressTranslator)
    (shared : Shared σ) : Prop where
  known : ∀ id, ∀ query ∈ (shared.calls id).query?,
    query.translator ∈ translators
  walked : ∀ id query value seen, shared.calls id = .insert query value seen →
    seen ≤ shared.writes ∧ (seen = shared.writes →
      walkPage shared.session query.translator query.root.raw query.page =
        .ok value)
  settled : (∀ id, ¬ shared.Invalidating id) → Coherent translators shared.view

theorem invalidating_setPhase_other {shared : Shared σ} {id other : Nat}
    {phase : Phase} (different : other ≠ id) :
    (shared.setPhase id phase).Invalidating other ↔
      shared.Invalidating other := by
  unfold Invalidating
  rw [setPhase_calls_other shared phase different]
  rfl

theorem Quiet.not_invalidating {shared : Shared σ} (quiet : shared.Quiet)
    (id : Nat) : ¬ shared.Invalidating id := by
  have idle := quiet id
  unfold Invalidating
  cases phase : shared.calls id <;> simp_all [Phase.Writing]

/-- Moving one call keeps the invariant when the new phase keeps its own part
and no clear is forgotten. -/
theorem Invariant.setPhase {translators : Set AddressTranslator}
    {shared : Shared σ} (holds : shared.Invariant translators) {id : Nat}
    {phase : Phase}
    (known : ∀ query ∈ phase.query?, query.translator ∈ translators)
    (walked : ∀ query value seen, phase = .insert query value seen →
      seen ≤ shared.writes ∧ (seen = shared.writes →
        walkPage shared.session query.translator query.root.raw query.page =
          .ok value))
    (forgets : shared.Invalidating id → Coherent translators shared.view) :
    (shared.setPhase id phase).Invariant translators where
  known := by
    intro other query member
    by_cases same : other = id
    · subst other
      rw [setPhase_calls_same] at member
      exact known query member
    · rw [setPhase_calls_other shared phase same] at member
      exact holds.known other query member
  walked := by
    intro other query value seen inserting
    by_cases same : other = id
    · subst other
      rw [setPhase_calls_same] at inserting
      exact walked query value seen inserting
    · rw [setPhase_calls_other shared phase same] at inserting
      exact holds.walked other query value seen inserting
  settled := by
    intro none
    by_cases pending : shared.Invalidating id
    · exact forgets pending
    · apply holds.settled
      intro other
      by_cases same : other = id
      · exact same ▸ pending
      · exact (invalidating_setPhase_other same).not.mp (none other)

theorem not_invalidating_of_query {shared : Shared σ} {id : Nat}
    {query : Query} (phase : (shared.calls id).query? = some query) :
    ¬ shared.Invalidating id := by
  unfold Invalidating
  cases before : shared.calls id <;> simp_all [Phase.query?]

theorem not_invalidating_of_idle {shared : Shared σ} {id : Nat}
    (phase : shared.calls id = .idle) : ¬ shared.Invalidating id := by
  simp [Invalidating, phase]

private theorem Invariant.inserted {translators : Set AddressTranslator}
    (sound : TagsSound translators) {shared : Shared σ}
    (holds : shared.Invariant translators) {id : Nat} {query : Query}
    {value : Translation} {seen : Nat}
    (before : shared.calls id = .insert query value seen)
    (timely : seen = shared.writes ∨ ∃ other, shared.Invalidating other) :
    Invariant translators { shared with
      translations := shared.translations.insert query.key value } where
  known := holds.known
  walked := holds.walked
  settled := by
    intro none
    rcases timely with current | ⟨other, pending⟩
    · have known := holds.known id query (by simp [before, Phase.query?])
      have walked := (holds.walked id query value seen before).2 current
      exact coherent_insert sound (holds.settled none) known walked
    · exact (none other pending).elim

/-- The memory write leaves every walk in flight behind. -/
private theorem Invariant.stored {translators : Set AddressTranslator}
    {shared : Shared σ} (holds : shared.Invariant translators) (id : Nat)
    (session : σ) (result : Result Unit) :
    ({ shared with session, writes := shared.writes + 1 }.setPhase
      id (.clear result)).Invariant translators where
  known := by
    intro other query member
    by_cases same : other = id
    · subst other
      simp [Phase.query?] at member
    · rw [setPhase_calls_other _ _ same] at member
      exact holds.known other query member
  walked := by
    intro other query value seen inserting
    by_cases same : other = id
    · subst other
      simp at inserting
    · rw [setPhase_calls_other _ _ same] at inserting
      have bound := (holds.walked other query value seen inserting).1
      simp only [Shared.setPhase]
      omega
  settled := by
    intro none
    exact (none id (by simp [Invalidating])).elim

private theorem Invariant.cleared {translators : Set AddressTranslator}
    {shared : Shared σ} (holds : shared.Invariant translators) :
    Invariant translators { shared with
      translations := shared.translations.clear } where
  known := holds.known
  walked := holds.walked
  settled := fun _ => coherent_of_cleared shared.view

theorem invariant_start {translators : Set AddressTranslator} {session : σ}
    {attached : VmiSession σ} (created : attach session = .ok attached) :
    (start attached).Invariant translators where
  known := by
    intro id query member
    simp [start, Phase.query?] at member
  walked := by
    intro id query value seen inserting
    simp [start] at inserting
  settled := fun _ => coherent_attach translators created

/-- A translation that moves on keeps its query and forgets no clear. -/
private theorem Invariant.proceed {translators : Set AddressTranslator}
    {shared : Shared σ} (holds : shared.Invariant translators) {id : Nat}
    {query : Query} {phase : Phase}
    (before : (shared.calls id).query? = some query)
    (after : phase.query? = some query)
    (walked : ∀ query value seen, phase = .insert query value seen →
      seen ≤ shared.writes ∧ (seen = shared.writes →
        walkPage shared.session query.translator query.root.raw query.page =
          .ok value)) :
    (shared.setPhase id phase).Invariant translators := by
  refine holds.setPhase ?_ walked ?_
  · intro other member
    rw [after, ← before] at member
    exact holds.known id other member
  · intro pending
    exact (not_invalidating_of_query before pending).elim

theorem invariant_step {translators : Set AddressTranslator}
    (sound : TagsSound translators) {shared next : Shared σ} {action : Action}
    (holds : shared.Invariant translators)
    (stepped : TimelyStep translators shared action next) :
    next.Invariant translators := by
  obtain ⟨stepped, known, timely⟩ := stepped
  cases step_effect stepped with
  | translates id query before =>
      refine holds.setPhase ?_ (by simp)
        (fun pending => (not_invalidating_of_idle before pending).elim)
      rintro _ ⟨⟩
      exact known
  | writes id address data before =>
      exact holds.setPhase (by simp [Phase.query?]) (by simp)
        (fun pending => (not_invalidating_of_idle before pending).elim)
  | hit id query value before found =>
      exact holds.proceed (by rw [before]; rfl) rfl (by simp)
  | miss id query before =>
      exact holds.proceed (by rw [before]; rfl) rfl (by simp)
  | walkFailed id query error before walked =>
      exact holds.proceed (by rw [before]; rfl) rfl (by simp)
  | walked id query value before walked =>
      refine holds.proceed (by rw [before]; rfl) rfl ?_
      rintro _ _ _ ⟨⟩
      exact ⟨Nat.le_refl _, fun _ => walked⟩
  | inserted id query value seen before =>
      simp only [Timely, before] at timely
      have current : (shared.calls id).query? = some query := by
        rw [before]
        rfl
      exact (holds.inserted sound before timely).proceed current rfl (by simp)
  | refused id address data error before unsupported =>
      refine holds.setPhase (by simp [Phase.query?]) (by simp) ?_
      intro pending
      simp [Invalidating, before, unsupported] at pending
  | stored id address data session result before =>
      exact holds.stored id session result
  | cleared id result before =>
      exact holds.cleared.setPhase (by simp [Phase.query?]) (by simp)
        (fun _ => coherent_of_cleared shared.view)

/-! Calls that start when every write has returned. -/

theorem finish_eq_uncached {session : σ} {query : Query} {value : Translation}
    (walked : walkPage session query.translator query.root.raw query.page =
      .ok value) :
    query.finish value =
      translateUncached session query.translator query.root query.address := by
  obtain ⟨offset, subtracted⟩ := checkedSub_pageBase query.address.raw
  simp only [Query.page] at walked
  simp [Query.finish, Query.page, translateUncached, subtracted, walked, okOr]

theorem error_eq_uncached {session : σ} {query : Query} {error : VmiError}
    (walked : walkPage session query.translator query.root.raw query.page =
      .error error) :
    .error error =
      translateUncached session query.translator query.root query.address := by
  obtain ⟨offset, subtracted⟩ := checkedSub_pageBase query.address.raw
  simp only [Query.page] at walked
  simp [translateUncached, subtracted, walked]

/-- What a call has taken from the memory is true of the memory there is. -/
def Fresh (session : σ) : Phase → Prop
  | .insert query value _ =>
      walkPage session query.translator query.root.raw query.page = .ok value
  | .translated query result =>
      result = translateUncached session query.translator query.root
        query.address
  | _ => True

/-- Nothing writes, and the calls of `targets` have only seen the memory there
is. -/
structure Undisturbed (session : σ) (targets : Set Nat) (shared : Shared σ) :
    Prop where
  same : shared.session = session
  quiet : shared.Quiet
  fresh : ∀ id ∈ targets, Fresh session (shared.calls id)

private theorem Undisturbed.setPhase {session : σ} {targets : Set Nat}
    {shared : Shared σ} (holds : shared.Undisturbed session targets) {id : Nat}
    {phase : Phase} (reads : ¬ phase.Writing)
    (fresh : id ∈ targets → Fresh session phase) :
    (shared.setPhase id phase).Undisturbed session targets where
  same := holds.same
  quiet := by
    intro other
    by_cases same : other = id
    · subst other
      rwa [setPhase_calls_same]
    · rw [setPhase_calls_other shared phase same]
      exact holds.quiet other
  fresh := by
    intro other member
    by_cases same : other = id
    · subst other
      rw [setPhase_calls_same]
      exact fresh member
    · rw [setPhase_calls_other shared phase same]
      exact holds.fresh other member

private theorem Undisturbed.insert {session : σ} {targets : Set Nat}
    {shared : Shared σ} (holds : shared.Undisturbed session targets)
    (translations : TranslationCache) :
    Undisturbed session targets { shared with translations } :=
  ⟨holds.same, holds.quiet, holds.fresh⟩

theorem undisturbed_step {translators : Set AddressTranslator} {session : σ}
    {targets : Set Nat} {shared next : Shared σ} {action : Action}
    (holds : shared.Undisturbed session targets)
    (invariant : shared.Invariant translators) (reads : ¬ action.Writes)
    (stepped : shared.step action = some next) :
    next.Undisturbed session targets := by
  have coherent := invariant.settled holds.quiet.not_invalidating
  cases step_effect stepped with
  | translates id query before => exact holds.setPhase not_false (by simp [Fresh])
  | writes id address data before => exact (reads trivial).elim
  | hit id query value before found =>
      refine holds.setPhase not_false ?_
      intro _
      have known := invariant.known id query (by rw [before]; rfl)
      have walked := (coherent _ _ _ value found).2 query.translator known rfl
      exact finish_eq_uncached (holds.same ▸ walked)
  | miss id query before => exact holds.setPhase not_false (by simp [Fresh])
  | walkFailed id query error before walked =>
      exact holds.setPhase not_false
        (fun _ => error_eq_uncached (holds.same ▸ walked))
  | walked id query value before walked =>
      exact holds.setPhase not_false (fun _ => holds.same ▸ walked)
  | inserted id query value seen before =>
      refine (holds.insert _).setPhase not_false ?_
      intro member
      have fresh := holds.fresh id member
      rw [before] at fresh
      exact finish_eq_uncached fresh
  | refused id address data error before unsupported =>
      exact holds.setPhase not_false (by simp [Fresh])
  | stored id address data session result before =>
      have writing := holds.quiet id
      simp [before, Phase.Writing] at writing
  | cleared id result before =>
      have writing := holds.quiet id
      simp [before, Phase.Writing] at writing

/-- As long as every insertion is timely, no stale mapping outlives the writes:
when none is in progress the cache is coherent, and a translation that starts
then answers for the memory there is. -/
theorem no_stale_mapping_when_timely {translators : Set AddressTranslator}
    (sound : TagsSound translators) {session : σ} {attached : VmiSession σ}
    (created : attach session = .ok attached) {actions : List Action}
    {middle : Shared σ}
    (run : Run (TimelyStep translators) (start attached) actions middle)
    (quiet : middle.Quiet) :
    Coherent translators middle.view ∧
      ∀ later final, Run (TimelyStep translators) middle later final →
        (∀ action ∈ later, ¬ action.Writes) →
        final.session = middle.session ∧
          ∀ id query result, middle.calls id = .idle →
            final.calls id = .translated query result →
              result = translateUncached final.session query.translator
                query.root query.address := by
  have holds := run.invariant (Invariant translators) (fun _ => True)
    (fun _ _ _ holds _ stepped => invariant_step sound holds stepped)
    (invariant_start created) (fun _ _ => trivial)
  refine ⟨holds.settled quiet.not_invalidating, ?_⟩
  intro later final resumed reads
  have undisturbed := (resumed.invariant
    (fun shared => shared.Invariant translators ∧
      shared.Undisturbed middle.session { id | middle.calls id = .idle })
    (fun action => ¬ action.Writes)
    (by
      rintro current action next ⟨invariant, undisturbed⟩ reads stepped
      exact ⟨invariant_step sound invariant stepped,
        undisturbed_step undisturbed invariant reads stepped.1⟩)
    ⟨holds, rfl, quiet, by
      intro id idle
      rw [idle]
      trivial⟩ reads).2
  refine ⟨undisturbed.same, ?_⟩
  intro id query result idle answered
  have fresh := undisturbed.fresh id idle
  rw [answered] at fresh
  rw [undisturbed.same]
  exact fresh

def frameQuery : Query := ⟨singleFrame, ⟨0⟩, ⟨0x5000⟩⟩

def frameSession : VmiSession FlatMemory := ⟨⟨[1]⟩, ⟨4096, ∅, []⟩⟩

theorem no_stale_mapping_after_remap :
    ∃ middle : Shared FlatMemory,
      Run (TimelyStep {singleFrame}) (start frameSession)
        [.beginTranslate 0 frameQuery, .advance 0, .advance 0, .advance 0,
          .beginWrite 1 ⟨0⟩ [2], .advance 1, .advance 1] middle ∧
      middle.Quiet ∧ middle.session = ⟨[2]⟩ ∧
      Coherent {singleFrame} middle.view ∧
      ∀ final, Run (TimelyStep {singleFrame}) middle
          [.beginTranslate 2 frameQuery, .advance 2, .advance 2] final →
        final.session = middle.session := by
  obtain ⟨middle, run, quiet, stored⟩ : ∃ middle : Shared FlatMemory,
      Run (TimelyStep {singleFrame}) (start frameSession)
        [.beginTranslate 0 frameQuery, .advance 0, .advance 0, .advance 0,
          .beginWrite 1 ⟨0⟩ [2], .advance 1, .advance 1] middle ∧
      middle.Quiet ∧ middle.session = ⟨[2]⟩ := by
    refine ⟨_, .cons ⟨rfl, rfl, trivial⟩ (.cons ⟨rfl, trivial, ?_⟩
      (.cons ⟨rfl, trivial, ?_⟩ (.cons ⟨rfl, trivial, Or.inl rfl⟩
        (.cons ⟨rfl, trivial, trivial⟩ (.cons ⟨rfl, trivial, ?_⟩
          (.cons ⟨rfl, trivial, ?_⟩ .nil)))))), ?_, rfl⟩
    · trivial
    · trivial
    · trivial
    · trivial
    · rintro (_ | _ | id) <;> exact not_false
  have created : attach (⟨[1]⟩ : FlatMemory) = .ok frameSession := rfl
  obtain ⟨coherent, later⟩ := no_stale_mapping_when_timely
    singleFrame_tagsSound created run quiet
  exact ⟨middle, run, quiet, stored, coherent, fun final resumed =>
    (later _ final resumed (by simp [Action.Writes])).1⟩

/-! The code does not wait for a timely moment. -/

/-- Call 0 walks, call 1 remaps the page and clears, call 0 inserts what it
walked, and call 2 starts when both are done. -/
def staleInsertion : List Action :=
  [.beginTranslate 0 frameQuery, .advance 0, .advance 0,
    .beginWrite 1 ⟨0⟩ [2], .advance 1, .advance 1, .advance 0,
    .beginTranslate 2 frameQuery, .advance 2]

theorem stale_mapping_survives_write :
    attach (⟨[1]⟩ : FlatMemory) = .ok frameSession ∧
      ∃ middle final : Shared FlatMemory,
        Run AnyStep (start frameSession) (staleInsertion.take 7) middle ∧
        Run AnyStep middle (staleInsertion.drop 7) final ∧
        middle.Quiet ∧ ¬ Coherent {singleFrame} middle.view ∧
        final.Quiet ∧ middle.calls 2 = .idle ∧
        final.calls 2 = .translated frameQuery (.ok ⟨⟨0x1000⟩, 4096⟩) ∧
        translateUncached final.session frameQuery.translator frameQuery.root
          frameQuery.address = .ok ⟨⟨0x2000⟩, 4096⟩ := by
  refine ⟨rfl, _, _, .cons rfl (.cons rfl (.cons rfl (.cons rfl (.cons rfl
    (.cons rfl (.cons rfl .nil)))))), .cons rfl (.cons rfl .nil), ?_, ?_, ?_,
    rfl, ?_, by decide⟩
  · rintro (_ | _ | _ | id) <;> exact not_false
  · intro coherent
    have walked := (coherent 1 0 0x5000 ⟨⟨0x1000⟩, 4096⟩ rfl).2
      singleFrame rfl rfl
    revert walked
    decide
  · rintro (_ | _ | _ | id) <;> exact not_false
  · rfl

end Shared

end LibVmi.Core.Concurrent
