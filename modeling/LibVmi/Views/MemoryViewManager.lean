import LibVmi.Data.Bitmap
import LibVmi.Data.Runs
import LibVmi.Types

namespace LibVmi.Views

open Data

/-! The memory views of a session. View zero always exists; the others are bits
of a bitmap whose size the identifiers exhaust. -/

def viewWordBits : Nat := 64

def viewWords : Nat := 1024

structure State where
  views : Vector UInt64 viewWords
  viewCount : Nat
  active : UInt16
  next : UInt16

namespace State

def location (view : UInt16) : Result (Nat × UInt64) := do
  let raw := view.toNat
  let word := raw / viewWordBits
  let shift ← okOr
    (if raw % viewWordBits < 2 ^ 32 then some (raw % viewWordBits) else none)
    (.backend "memory view bitmap shift overflow")
  let mask ← okOr (checkedShl 1 shift)
    (.backend "memory view bitmap mask overflow")
  return (word, mask)

def wordAt (state : State) (word : Nat) : UInt64 :=
  state.views[word]?.getD 0

def contains (state : State) (view : UInt16) : Result Bool :=
  if view = 0 then
    .ok true
  else do
    let (word, mask) ← location view
    return state.wordAt word &&& mask ≠ 0

/-- `get_mut` of a word and an assignment to it. -/
def store (state : State) (word : Nat) (value : UInt64) (viewCount : Nat) :
    Result State :=
  if within : word < viewWords then
    .ok { state with
      views := state.views.set word value within
      viewCount := viewCount }
  else
    .error (.backend "memory view bitmap index overflow")

/-- Nothing is written before the last of the checks. -/
def insert (state : State) (view : UInt16) : Result (State × Bool) := do
  let (word, mask) ← location view
  if state.wordAt word &&& mask ≠ 0 then
    return (state, false)
  else
    let nextCount ← okOr (Usize.checkedAdd state.viewCount 1)
      (.backend "memory view count overflow")
    let inserted ← state.store word (state.wordAt word ||| mask) nextCount
    return (inserted, true)

def remove (state : State) (view : UInt16) : Result (State × Bool) := do
  let (word, mask) ← location view
  if state.wordAt word &&& mask = 0 then
    return (state, false)
  else
    let nextCount ← okOr (Usize.checkedSub state.viewCount 1)
      (.backend "memory view count underflow")
    let removed ← state.store word (state.wordAt word &&& ~~~mask) nextCount
    return (removed, true)

/-- `candidate != 0 && state.insert(candidate)?`. -/
def insertCandidate (state : State) (candidate : UInt16) :
    Result (State × Bool) :=
  if candidate ≠ 0 then state.insert candidate else .ok (state, false)

def bump (state : State) : State :=
  { state with next := state.next + 1 }

theorem store_eq_ok {state stored : State} {word viewCount : Nat}
    {value : UInt64} :
    state.store word value viewCount = .ok stored ↔
      ∃ within : word < viewWords, stored =
        ⟨state.views.set word value within, viewCount, state.active,
          state.next⟩ := by
  unfold store
  split
  · rename_i within
    simp [within, eq_comm]
  · rename_i beyond
    simp [beyond]

theorem store_ok (state : State) {word : Nat} (value : UInt64)
    (viewCount : Nat) (within : word < viewWords) :
    state.store word value viewCount =
      .ok ⟨state.views.set word value within, viewCount, state.active,
        state.next⟩ :=
  store_eq_ok.mpr ⟨within, rfl⟩

theorem insert_next {state inserted : State} {view : UInt16} {fresh : Bool}
    (result : state.insert view = .ok (inserted, fresh)) :
    inserted.next = state.next := by
  unfold insert at result
  obtain ⟨⟨word, mask⟩, _, result⟩ := bind_eq_ok.mp result
  simp only at result
  split at result
  · obtain ⟨rfl, _⟩ := Prod.mk.inj (Except.ok.inj result)
    rfl
  · obtain ⟨nextCount, _, result⟩ := bind_eq_ok.mp result
    obtain ⟨stored, storing, result⟩ := bind_eq_ok.mp result
    obtain ⟨rfl, _⟩ := Prod.mk.inj (Except.ok.inj result)
    obtain ⟨_, rfl⟩ := store_eq_ok.mp storing
    rfl

theorem insertCandidate_next {state inserted : State} {candidate : UInt16}
    {fresh : Bool}
    (result : state.insertCandidate candidate = .ok (inserted, fresh)) :
    inserted.next = state.next := by
  unfold insertCandidate at result
  split at result
  · exact insert_next result
  · obtain ⟨rfl, _⟩ := Prod.mk.inj (Except.ok.inj result)
    rfl

/-- How many rounds the cursor is away from where the search started. -/
def roundsLeft (start : UInt16) (state : State) : Nat :=
  (start - state.next - 1).toNat

theorem roundsLeft_lt {start : UInt16} {state later : State}
    (bumped : later.next = state.next + 1) (unfinished : later.next ≠ start) :
    later.roundsLeft start < state.roundsLeft start := by
  have different : later.next.toNat ≠ start.toNat := by
    intro same
    exact unfinished (UInt16.toNat_inj.mp same)
  have startBound := start.toNat_lt
  have nextBound := state.next.toNat_lt
  unfold roundsLeft
  rw [bumped] at different ⊢
  simp only [UInt16.toNat_sub, UInt16.toNat_add, UInt16.toNat_one] at *
  omega

/-- The loop of `create`. -/
def createFrom (start : UInt16) (state : State) : State × Result UInt16 :=
  match result : state.bump.insertCandidate state.next with
  | .error error => (state.bump, .error error)
  | .ok (later, true) => (later, .ok state.next)
  | .ok (later, false) =>
      if unfinished : later.next = start then
        (later, .error (.backend "memory view identifiers exhausted"))
      else
        have := roundsLeft_lt (insertCandidate_next result) unfinished
        createFrom start later
termination_by state.roundsLeft start

def create (state : State) : State × Result UInt16 :=
  createFrom state.next state

def destroy (state : State) (view : UInt16) : State × Result Unit :=
  if view = 0 then
    (state, .error (.backend "default memory view cannot be destroyed"))
  else if view = state.active then
    (state, .error (.backend
      ("active memory view " ++ toString view.toNat ++ " cannot be destroyed")))
  else
    match state.remove view with
    | .error error => (state, .error error)
    | .ok (removed, true) => (removed, .ok ())
    | .ok (removed, false) =>
        (removed, .error (.backend
          ("memory view " ++ toString view.toNat ++ " does not exist")))

/-- Every identifier in ascending order. -/
def allViews : List UInt16 :=
  (List.range (2 ^ 16)).map UInt16.ofNat

def collect (state : State) : List UInt16 → Result (List UInt16)
  | [] => .ok []
  | view :: rest => do
      let live ← state.contains view
      let others ← state.collect rest
      return if live then view :: others else others

/-- `reserved` is the outcome of allocating the list. -/
def listViews (state : State) (reserved : Except String Unit) :
    Result (List UInt16) :=
  match reserved with
  | .error error =>
      .error (.backend ("failed to allocate memory view list: " ++ error))
  | .ok () => state.collect allViews

def switchView (state : State) (view : UInt16) : State × Result Unit :=
  match state.contains view with
  | .error error => (state, .error error)
  | .ok false =>
      (state, .error (.backend
        ("memory view " ++ toString view.toNat ++ " does not exist")))
  | .ok true => ({ state with active := view }, .ok ())

def new : State where
  views := Vector.replicate viewWords 0
  viewCount := 1
  active := 0
  next := 1

/-! What the bitmap says. -/

def Live (state : State) (view : UInt16) : Prop :=
  view = 0 ∨ Bitmap.test state.views view.toNat = true

structure Sound (state : State) : Prop where
  zeroClear : Bitmap.test state.views 0 = false
  counted : state.viewCount = 1 + (Bitmap.members state.views).card
  activeLive : state.Live state.active

theorem Sound.not_live {state : State} {view : UInt16} (nonzero : view ≠ 0) :
    ¬ state.Live view ↔ Bitmap.test state.views view.toNat = false := by
  simp [Live, nonzero]

theorem Sound.count_bound {state : State} (sound : state.Sound) :
    state.viewCount ≤ 2 ^ 16 + 1 := by
  have bounded := Bitmap.members_card_le state.views
  change _ ≤ 64 * 1024 at bounded
  rw [sound.counted]
  omega

theorem sound_new : new.Sound where
  zeroClear := Bitmap.test_replicate_zero 0
  counted := by
    have empty : Bitmap.members new.views = ∅ := by
      ext bit
      simp [new]
    rw [empty]
    rfl
  activeLive := .inl rfl

theorem location_eq (view : UInt16) :
    ∃ mask, location view = .ok (view.toNat / 64, mask) ∧
      mask.toNat = 2 ^ (view.toNat % 64) := by
  have below : view.toNat % viewWordBits < 64 := Nat.mod_lt _ (by decide)
  obtain ⟨mask, shifted, maskEq⟩ := one_checkedShl _ below
  refine ⟨mask, ?_, maskEq⟩
  simp only [location, if_pos (show view.toNat % viewWordBits < 2 ^ 32 by omega),
    okOr_some, ok_bind, shifted]
  rfl

theorem word_lt (view : UInt16) : view.toNat / 64 < viewWords := by
  have bound := view.toNat_lt
  unfold viewWords
  omega

theorem contains_eq (state : State) (view : UInt16) :
    state.contains view =
      .ok (view == 0 || Bitmap.test state.views view.toNat) := by
  unfold contains
  by_cases zero : view = 0
  · simp [zero]
  · obtain ⟨mask, located, maskEq⟩ := location_eq view
    have clear := Bitmap.and_mask_eq_zero state.views maskEq
    rw [if_neg zero, located, ok_bind]
    simp only [wordAt, ne_eq, clear]
    simp [zero]

theorem contains_iff {state : State} {view : UInt16} :
    state.contains view = .ok true ↔ state.Live view := by
  rw [contains_eq]
  simp [Live]

/-- A view that is set already is not inserted again. -/
theorem insert_of_set {state : State} {view : UInt16}
    (held : Bitmap.test state.views view.toNat = true) :
    state.insert view = .ok (state, false) := by
  obtain ⟨mask, located, maskEq⟩ := location_eq view
  have occupied : state.wordAt (view.toNat / 64) &&& mask ≠ 0 := by
    rw [wordAt, Ne, Bitmap.and_mask_eq_zero _ maskEq, held]
    decide
  simp only [insert, located, ok_bind, if_pos occupied, pure_eq_ok]

/-- `after` is `before` with one bit changed, and the cursor and the active view
as they were. -/
structure Changed (before after : State) (view : UInt16) (held : Bool) :
    Prop where
  tests : ∀ other : UInt16, other ≠ view →
    Bitmap.test after.views other.toNat = Bitmap.test before.views other.toNat
  test : Bitmap.test after.views view.toNat = held
  active : after.active = before.active
  next : after.next = before.next

theorem insert_of_clear {state : State} {view : UInt16} (sound : state.Sound)
    (clear : Bitmap.test state.views view.toNat = false) :
    ∃ inserted, state.insert view = .ok (inserted, true) ∧
      Changed state inserted view true ∧
      inserted.viewCount = 1 + (Bitmap.members inserted.views).card := by
  obtain ⟨mask, located, maskEq⟩ := location_eq view
  have vacant : ¬ state.wordAt (view.toNat / 64) &&& mask ≠ 0 := by
    rw [wordAt, not_not, Bitmap.and_mask_eq_zero _ maskEq, clear]
  have bound := sound.count_bound
  have counted : Usize.checkedAdd state.viewCount 1 =
      some (state.viewCount + 1) :=
    Usize.checkedAdd_eq_some.mpr ⟨rfl, by unfold Usize.limit; omega⟩
  have tests := Bitmap.test_set_or state.views (word_lt view) maskEq
  have stored := store_ok state (state.wordAt (view.toNat / 64) ||| mask)
    (state.viewCount + 1) (word_lt view)
  refine ⟨⟨state.views.set (view.toNat / 64)
    (state.wordAt (view.toNat / 64) ||| mask) (word_lt view),
    state.viewCount + 1, state.active, state.next⟩, ?_, ⟨?_, ?_, rfl, rfl⟩, ?_⟩
  · simp only [insert, located, ok_bind, if_neg vacant, counted, okOr_some,
      stored, pure_eq_ok]
  · intro other different
    have apart : other.toNat ≠ view.toNat := fun same =>
      different (UInt16.toNat_inj.mp same)
    simp [wordAt, tests, apart]
  · simp [wordAt, tests]
  · have added := Bitmap.members_insert clear tests
    simp only [wordAt]
    rw [added, sound.counted]
    omega

theorem remove_of_clear {state : State} {view : UInt16}
    (clear : Bitmap.test state.views view.toNat = false) :
    state.remove view = .ok (state, false) := by
  obtain ⟨mask, located, maskEq⟩ := location_eq view
  have vacant : state.wordAt (view.toNat / 64) &&& mask = 0 := by
    rw [wordAt, Bitmap.and_mask_eq_zero _ maskEq, clear]
  simp only [remove, located, ok_bind, if_pos vacant, pure_eq_ok]

theorem remove_of_set {state : State} {view : UInt16} (sound : state.Sound)
    (held : Bitmap.test state.views view.toNat = true) :
    ∃ removed, state.remove view = .ok (removed, true) ∧
      Changed state removed view false ∧
      removed.viewCount = 1 + (Bitmap.members removed.views).card := by
  obtain ⟨mask, located, maskEq⟩ := location_eq view
  have occupied : ¬ state.wordAt (view.toNat / 64) &&& mask = 0 := by
    rw [wordAt, Bitmap.and_mask_eq_zero _ maskEq, held]
    decide
  have sized := sound.counted
  have counted : Usize.checkedSub state.viewCount 1 =
      some (state.viewCount - 1) :=
    Usize.checkedSub_eq_some.mpr (by omega)
  have tests := Bitmap.test_set_and_not state.views (word_lt view) maskEq
  have stored := store_ok state (state.wordAt (view.toNat / 64) &&& ~~~mask)
    (state.viewCount - 1) (word_lt view)
  refine ⟨⟨state.views.set (view.toNat / 64)
    (state.wordAt (view.toNat / 64) &&& ~~~mask) (word_lt view),
    state.viewCount - 1, state.active, state.next⟩, ?_, ⟨?_, ?_, rfl, rfl⟩, ?_⟩
  · simp only [remove, located, ok_bind, if_neg occupied, counted, okOr_some,
      stored, pure_eq_ok]
  · intro other different
    have apart : other.toNat ≠ view.toNat := fun same =>
      different (UInt16.toNat_inj.mp same)
    simp [wordAt, tests, apart]
  · simp [wordAt, tests]
  · have erased := Bitmap.members_erase held tests
    simp only [wordAt]
    omega

/-- A changed state is sound where the changed view is not zero, and stays live
where it is active. -/
theorem Sound.changed {before after : State} {view : UInt16} {held : Bool}
    (sound : before.Sound) (changed : Changed before after view held)
    (nonzero : view ≠ 0)
    (counted : after.viewCount = 1 + (Bitmap.members after.views).card)
    (kept : view = before.active → held = true) : after.Sound where
  zeroClear := (changed.tests 0 (Ne.symm nonzero)).trans sound.zeroClear
  counted := counted
  activeLive := by
    rw [changed.active]
    by_cases same : before.active = view
    · exact .inr (by rw [same, changed.test, kept same.symm])
    · rw [Live, changed.tests before.active same]
      exact sound.activeLive

theorem Changed.live_iff {before after : State} {view : UInt16}
    (changed : Changed before after view true) (other : UInt16) :
    after.Live other ↔ other = view ∨ before.Live other := by
  by_cases same : other = view
  · subst other
    simp [Live, changed.test]
  · simp [Live, changed.tests other same, same]

theorem Changed.live_iff_of_cleared {before after : State} {view : UInt16}
    (changed : Changed before after view false) (nonzero : view ≠ 0)
    (other : UInt16) :
    after.Live other ↔ before.Live other ∧ other ≠ view := by
  by_cases same : other = view
  · subst other
    simp [Live, changed.test, nonzero]
  · simp [Live, changed.tests other same, same]

/-! The search for a free identifier. -/

theorem Sound.bump {state : State} (sound : state.Sound) : state.bump.Sound :=
  ⟨sound.zeroClear, sound.counted, sound.activeLive⟩

/-- A round takes the identifier at the cursor, unless it is live. -/
theorem round_cases {state : State} (sound : state.Sound) :
    (state.next ≠ 0 ∧ ¬ state.Live state.next ∧
      ∃ inserted, state.bump.insertCandidate state.next =
          .ok (inserted, true) ∧
        Changed state.bump inserted state.next true ∧
        inserted.viewCount = 1 + (Bitmap.members inserted.views).card) ∨
    (state.Live state.next ∧
      state.bump.insertCandidate state.next = .ok (state.bump, false)) := by
  unfold insertCandidate
  by_cases zero : state.next = 0
  · rw [if_neg (not_not.mpr zero)]
    exact .inr ⟨.inl zero, rfl⟩
  · rw [if_pos zero]
    by_cases held : Bitmap.test state.views state.next.toNat = true
    · exact .inr ⟨.inr held, insert_of_set held⟩
    · rw [Bool.not_eq_true] at held
      exact .inl ⟨zero, (Sound.not_live zero).mpr held,
        insert_of_clear sound.bump held⟩

theorem round_ok {state : State} (sound : state.Sound) {error : VmiError} :
    state.bump.insertCandidate state.next ≠ .error error := by
  obtain ⟨_, _, _, inserted, _⟩ | ⟨_, passed⟩ := round_cases sound
  · rw [inserted]
    exact nofun
  · rw [passed]
    exact nofun

theorem round_taken {state later : State} (sound : state.Sound)
    (result : state.bump.insertCandidate state.next = .ok (later, true)) :
    state.next ≠ 0 ∧ ¬ state.Live state.next ∧
      Changed state.bump later state.next true ∧
      later.viewCount = 1 + (Bitmap.members later.views).card := by
  obtain ⟨nonzero, fresh, inserted, insertedEq, changed, counted⟩ |
    ⟨_, passed⟩ := round_cases sound
  · rw [insertedEq] at result
    obtain ⟨same, _⟩ := Prod.mk.inj (Except.ok.inj result)
    subst same
    exact ⟨nonzero, fresh, changed, counted⟩
  · rw [passed] at result
    obtain ⟨_, impossible⟩ := Prod.mk.inj (Except.ok.inj result)
    contradiction

theorem round_passed {state later : State} (sound : state.Sound)
    (result : state.bump.insertCandidate state.next = .ok (later, false)) :
    state.Live state.next ∧ state.bump = later := by
  obtain ⟨_, _, _, inserted, _⟩ | ⟨occupied, passed⟩ := round_cases sound
  · rw [inserted] at result
    obtain ⟨_, impossible⟩ := Prod.mk.inj (Except.ok.inj result)
    contradiction
  · rw [passed] at result
    exact ⟨occupied, (Prod.mk.inj (Except.ok.inj result)).1⟩

/-- What an exhausted search leaves: all but the cursor. -/
structure Unchanged (before after : State) : Prop where
  views : after.views = before.views
  viewCount : after.viewCount = before.viewCount
  active : after.active = before.active

theorem Unchanged.live_iff {before after : State}
    (unchanged : Unchanged before after) (view : UInt16) :
    after.Live view ↔ before.Live view := by
  rw [Live, Live, unchanged.views]

theorem Sound.unchanged {before after : State} (sound : before.Sound)
    (unchanged : Unchanged before after) : after.Sound where
  zeroClear := by rw [unchanged.views, sound.zeroClear]
  counted := by rw [unchanged.viewCount, unchanged.views, sound.counted]
  activeLive := by
    rw [unchanged.active, unchanged.live_iff]
    exact sound.activeLive

/-- Between where the search started and the cursor there is nothing free. -/
def Tried (start : UInt16) (state : State) : Prop :=
  ∀ view : UInt16, (view - start).toNat < (state.next - start).toNat →
    state.Live view

structure Created (before after : State) (view : UInt16) : Prop where
  nonzero : view ≠ 0
  fresh : ¬ before.Live view
  live : ∀ other, after.Live other ↔ other = view ∨ before.Live other
  active : after.active = before.active
  sound : after.Sound

theorem Tried.start (state : State) : Tried state.next state := by
  intro view near
  rw [UInt16.sub_self] at near
  exact absurd near (Nat.not_lt_zero _)

/-- A round that found the identifier at the cursor live tries the next. -/
theorem Tried.bump {start : UInt16} {state : State} (tried : Tried start state)
    (occupied : state.Live state.next) (unfinished : state.bump.next ≠ start) :
    Tried start state.bump := by
  intro view near
  by_cases same : view = state.next
  · subst view
    exact occupied
  · apply tried view
    have different : view.toNat ≠ state.next.toNat := by
      intro equal
      exact same (UInt16.toNat_inj.mp equal)
    have further : (state.next + 1).toNat ≠ start.toNat := by
      intro equal
      exact unfinished (UInt16.toNat_inj.mp equal)
    have viewBound := view.toNat_lt
    have startBound := start.toNat_lt
    have nextBound := state.next.toNat_lt
    simp only [State.bump, UInt16.toNat_sub, UInt16.toNat_add,
      UInt16.toNat_one] at near further ⊢
    omega

/-- Back at the start, every identifier has been tried. -/
theorem Tried.exhausted {start : UInt16} {state : State}
    (tried : Tried start state) (occupied : state.Live state.next)
    (finished : state.bump.next = start) (view : UInt16) :
    state.Live view := by
  by_cases same : view = state.next
  · subst view
    exact occupied
  · apply tried view
    have different : view.toNat ≠ state.next.toNat := by
      intro equal
      exact same (UInt16.toNat_inj.mp equal)
    have viewBound := view.toNat_lt
    have nextBound := state.next.toNat_lt
    subst start
    simp only [State.bump, UInt16.toNat_sub, UInt16.toNat_add,
      UInt16.toNat_one]
    omega

theorem createFrom_spec (start : UInt16) (state : State)
    (sound : state.Sound) (tried : Tried start state) :
    (∃ view, (createFrom start state).2 = .ok view ∧
      Created state (createFrom start state).1 view) ∨
    ((createFrom start state).2 =
        .error (.backend "memory view identifiers exhausted") ∧
      Unchanged state (createFrom start state).1 ∧
      ∀ view, state.Live view) := by
  fun_induction createFrom start state with
  | case1 state error result => exact absurd result (round_ok sound)
  | case2 state later result =>
      obtain ⟨nonzero, fresh, changed, counted⟩ := round_taken sound result
      exact .inl ⟨state.next, rfl, {
        nonzero := nonzero
        fresh := fresh
        live := changed.live_iff
        active := changed.active
        sound := sound.bump.changed changed nonzero counted fun _ => rfl }⟩
  | case3 state later result finished =>
      obtain ⟨occupied, same⟩ := round_passed sound result
      subst same
      exact .inr ⟨rfl, ⟨rfl, rfl, rfl⟩, tried.exhausted occupied finished⟩
  | case4 state later result unfinished shorter induction =>
      obtain ⟨occupied, same⟩ := round_passed sound result
      subst same
      obtain ⟨view, created, outcome⟩ | ⟨failed, unchanged, full⟩ :=
        induction sound.bump (tried.bump occupied unfinished)
      · exact .inl ⟨view, created, outcome.nonzero, outcome.fresh,
          outcome.live, outcome.active, outcome.sound⟩
      · exact .inr ⟨failed, ⟨unchanged.views, unchanged.viewCount,
          unchanged.active⟩, full⟩

theorem create_spec {state : State} (sound : state.Sound) :
    (∃ view, state.create.2 = .ok view ∧
      Created state state.create.1 view) ∨
    (state.create.2 =
        .error (.backend "memory view identifiers exhausted") ∧
      Unchanged state state.create.1 ∧ ∀ view, state.Live view) :=
  createFrom_spec state.next state sound (Tried.start state)

/-! The other calls. -/

structure Destroyed (before after : State) (view : UInt16) : Prop where
  live : ∀ other, after.Live other ↔ before.Live other ∧ other ≠ view
  active : after.active = before.active
  sound : after.Sound

def Destroyable (state : State) (view : UInt16) : Prop :=
  state.Live view ∧ view ≠ 0 ∧ view ≠ state.active

theorem destroy_spec {state : State} (sound : state.Sound) (view : UInt16) :
    (state.Destroyable view ∧ (state.destroy view).2 = .ok () ∧
      Destroyed state (state.destroy view).1 view) ∨
    (¬ state.Destroyable view ∧
      ∃ error, state.destroy view = (state, .error error)) := by
  unfold destroy Destroyable
  by_cases zero : view = 0
  · rw [if_pos zero]
    exact .inr ⟨fun destroyable => destroyable.2.1 zero, _, rfl⟩
  · rw [if_neg zero]
    by_cases active : view = state.active
    · rw [if_pos active]
      exact .inr ⟨fun destroyable => destroyable.2.2 active, _, rfl⟩
    · rw [if_neg active]
      by_cases held : Bitmap.test state.views view.toNat = true
      · obtain ⟨removed, removedEq, changed, counted⟩ :=
          remove_of_set sound held
        rw [removedEq]
        exact .inl ⟨⟨.inr held, zero, active⟩, rfl, {
          live := changed.live_iff_of_cleared zero
          active := changed.active
          sound := sound.changed changed zero counted
            fun same => absurd same active }⟩
      · rw [Bool.not_eq_true] at held
        rw [remove_of_clear held]
        exact .inr ⟨fun destroyable =>
          (Sound.not_live zero).mpr held destroyable.1, _, rfl⟩

theorem switchView_spec (state : State) (view : UInt16) :
    (state.Live view ∧
      state.switchView view = ({ state with active := view }, .ok ())) ∨
    (¬ state.Live view ∧
      ∃ error, state.switchView view = (state, .error error)) := by
  unfold switchView
  by_cases live : state.Live view
  · rw [contains_iff.mpr live]
    exact .inl ⟨live, rfl⟩
  · have missing : state.contains view = .ok false := by
      have outcome := contains_eq state view
      cases held : (view == 0 || Bitmap.test state.views view.toNat) with
      | false => rw [outcome, held]
      | true =>
          rw [held] at outcome
          exact absurd (contains_iff.mp outcome) live
    rw [missing]
    exact .inr ⟨live, _, rfl⟩

def isLive (state : State) (view : UInt16) : Bool :=
  view == 0 || Bitmap.test state.views view.toNat

theorem isLive_iff {state : State} {view : UInt16} :
    state.isLive view = true ↔ state.Live view := by
  simp [isLive, Live]

theorem collect_eq (state : State) (views : List UInt16) :
    state.collect views = .ok (views.filter state.isLive) := by
  induction views with
  | nil => rfl
  | cons view rest induction =>
      rw [collect, contains_eq, ok_bind, induction, ok_bind,
        List.filter_cons]
      rfl

theorem mem_allViews (view : UInt16) : view ∈ allViews :=
  List.mem_map.mpr ⟨view.toNat, List.mem_range.mpr view.toNat_lt,
    UInt16.ofNat_toNat⟩

theorem toNat_ofNat_range {raw : Nat} (within : raw ∈ List.range (2 ^ 16)) :
    (UInt16.ofNat raw).toNat = raw :=
  UInt16.toNat_ofNat_of_lt' (List.mem_range.mp within)

theorem allViews_ascending : allViews.Pairwise (· < ·) := by
  refine List.pairwise_map.mpr
    (List.pairwise_lt_range.imp_of_mem fun left right below => ?_)
  rw [UInt16.lt_iff_toNat_lt, toNat_ofNat_range left, toNat_ofNat_range right]
  exact below

/-- The list is as long as the count says, the default view included. -/
theorem Sound.length_live {state : State} (sound : state.Sound) :
    (allViews.filter state.isLive).length = state.viewCount := by
  have listed : (allViews.filter state.isLive).length =
      ((List.range (2 ^ 16)).filter fun raw =>
        state.isLive (UInt16.ofNat raw)).length := by
    rw [allViews, List.filter_map, List.length_map]
    rfl
  have distinct : ((List.range (2 ^ 16)).filter fun raw =>
      state.isLive (UInt16.ofNat raw)).Nodup :=
    List.nodup_range.filter _
  have members : ((List.range (2 ^ 16)).filter fun raw =>
      state.isLive (UInt16.ofNat raw)).toFinset =
      Insert.insert 0 (Bitmap.members state.views) := by
    ext raw
    rw [List.mem_toFinset, List.mem_filter, Finset.mem_insert,
      Bitmap.mem_members]
    constructor
    · intro ⟨within, live⟩
      rw [isLive_iff, Live, toNat_ofNat_range within] at live
      refine live.imp_left fun zero => ?_
      rw [← toNat_ofNat_range within, zero]
      rfl
    · intro live
      have within : raw ∈ List.range (2 ^ 16) := by
        rw [List.mem_range]
        by_contra beyond
        obtain zero | held := live
        · omega
        · have outside : 64 * viewWords ≤ raw := by
            unfold viewWords
            omega
          rw [Bitmap.test_eq_false_of_beyond outside] at held
          exact Bool.false_ne_true held
      refine ⟨within, isLive_iff.mpr ?_⟩
      rw [Live, toNat_ofNat_range within]
      refine live.imp_left fun zero => ?_
      rw [zero]
      rfl
  rw [listed, ← List.toFinset_card_of_nodup distinct, members,
    Finset.card_insert_of_notMem (by simp [sound.zeroClear]), sound.counted,
    Nat.add_comm]

theorem listViews_spec {state : State} (sound : state.Sound) :
    ∃ views, state.listViews (.ok ()) = .ok views ∧
      views.Pairwise (· < ·) ∧ (∀ view, view ∈ views ↔ state.Live view) ∧
      views.length = state.viewCount := by
  refine ⟨allViews.filter state.isLive, collect_eq state allViews,
    allViews_ascending.filter _, ?_, sound.length_live⟩
  intro view
  rw [List.mem_filter, isLive_iff, and_iff_right (mem_allViews view)]

end State

end LibVmi.Views
