import LibVmi.Views.MemoryViewManager

namespace LibVmi.Views

open Data

/-! The calls of a manager. Each holds the lock from its start to its end, so
the calls of any number of threads are one sequence. -/

inductive Call where
  | create
  | destroy (view : UInt16)
  | switchView (view : UInt16)
  | activeView
  | views (reserved : Except String Unit)

inductive Reply where
  | created (result : Result UInt16)
  | done (result : Result Unit)
  | active (view : UInt16)
  | listed (result : Result (List UInt16))

def Reply.failed : Reply → Bool
  | .created (.error _) => true
  | .done (.error _) => true
  | .listed (.error _) => true
  | _ => false

namespace State

def act (state : State) : Call → Option (State × Reply)
  | .create =>
      let (created, result) := state.create
      some (created, .created result)
  | .destroy view =>
      let (destroyed, result) := state.destroy view
      some (destroyed, .done result)
  | .switchView view =>
      let (switched, result) := state.switchView view
      some (switched, .done result)
  | .activeView => some (state, .active state.active)
  | .views reserved => some (state, .listed (state.listViews reserved))

/-! What a call comes to. -/

inductive Outcome (state : State) : Call → State → Reply → Prop
  | created {next : State} {view : UInt16} (made : Created state next view) :
      Outcome state .create next (.created (.ok view))
  | exhausted {next : State} {error : VmiError}
      (unchanged : Unchanged state next) (full : ∀ view, state.Live view) :
      Outcome state .create next (.created (.error error))
  | destroyed {next : State} {view : UInt16}
      (destroyable : state.Destroyable view)
      (gone : Destroyed state next view) :
      Outcome state (.destroy view) next (.done (.ok ()))
  | kept {view : UInt16} {error : VmiError}
      (needed : ¬ state.Destroyable view) :
      Outcome state (.destroy view) state (.done (.error error))
  | switched {view : UInt16} (live : state.Live view) :
      Outcome state (.switchView view) { state with active := view }
        (.done (.ok ()))
  | stayed {view : UInt16} {error : VmiError} (dead : ¬ state.Live view) :
      Outcome state (.switchView view) state (.done (.error error))
  | asked : Outcome state .activeView state (.active state.active)
  | listed {reserved : Except String Unit} :
      Outcome state (.views reserved) state
        (.listed (state.listViews reserved))

theorem Sound.act_outcome {state : State} (sound : state.Sound) (call : Call) :
    ∃ next reply, state.act call = some (next, reply) ∧
      Outcome state call next reply := by
  cases call with
  | create =>
      refine ⟨state.create.1, .created state.create.2, rfl, ?_⟩
      obtain ⟨view, answer, made⟩ | ⟨answer, unchanged, full⟩ :=
        create_spec sound
      · rw [answer]
        exact .created made
      · rw [answer]
        exact .exhausted unchanged full
  | destroy view =>
      refine ⟨(state.destroy view).1, .done (state.destroy view).2, rfl, ?_⟩
      obtain ⟨destroyable, answer, gone⟩ | ⟨needed, error, answer⟩ :=
        destroy_spec sound view
      · rw [answer]
        exact .destroyed destroyable gone
      · rw [answer]
        exact .kept needed
  | switchView view =>
      refine ⟨(state.switchView view).1, .done (state.switchView view).2, rfl,
        ?_⟩
      obtain ⟨live, answer⟩ | ⟨dead, error, answer⟩ :=
        switchView_spec state view
      · rw [answer]
        exact .switched live
      · rw [answer]
        exact .stayed dead
  | activeView => exact ⟨_, _, rfl, .asked⟩
  | views reserved => exact ⟨_, _, rfl, .listed⟩

theorem Sound.outcome {state next : State} {call : Call} {reply : Reply}
    (sound : state.Sound) (acted : state.act call = some (next, reply)) :
    Outcome state call next reply := by
  obtain ⟨after, answer, same, outcome⟩ := sound.act_outcome call
  rw [acted] at same
  obtain ⟨rfl, rfl⟩ := Prod.mk.inj (Option.some.inj same)
  exact outcome

theorem Outcome.sound {state next : State} {call : Call} {reply : Reply}
    (outcome : Outcome state call next reply) (sound : state.Sound) :
    next.Sound := by
  cases outcome with
  | created made => exact made.sound
  | exhausted unchanged => exact sound.unchanged unchanged
  | destroyed destroyable gone => exact gone.sound
  | switched live => exact ⟨sound.zeroClear, sound.counted, live⟩
  | kept => exact sound
  | stayed => exact sound
  | asked => exact sound
  | listed => exact sound

/-- A call that fails leaves no trace but the cursor of the search. -/
theorem Outcome.unchanged {state next : State} {call : Call} {reply : Reply}
    (outcome : Outcome state call next reply)
    (failed : reply.failed = true) : Unchanged state next := by
  cases outcome with
  | created made => contradiction
  | exhausted unchanged => exact unchanged
  | destroyed destroyable gone => contradiction
  | switched live => contradiction
  | kept => exact ⟨rfl, rfl, rfl⟩
  | stayed => exact ⟨rfl, rfl, rfl⟩
  | asked => contradiction
  | listed => exact ⟨rfl, rfl, rfl⟩

theorem sound_of_run {labels : List (Call × Reply)} {final : State}
    (run : Run (Answers act) new labels final) : final.Sound :=
  run.invariant Sound (fun _ => True)
    (fun _ _ _ sound _ step => (sound.outcome step).sound sound) sound_new
    fun _ _ => trivial

theorem Sound.exhausted_iff {state : State} (sound : state.Sound) :
    (∃ next error,
      state.act .create = some (next, .created (.error error))) ↔
      ∀ view, view ≠ 0 → state.Live view := by
  constructor
  · intro ⟨next, error, acted⟩ view _
    cases sound.outcome acted with
    | exhausted unchanged full => exact full view
  · intro full
    obtain ⟨next, reply, acted, outcome⟩ := sound.act_outcome .create
    cases outcome with
    | created made => exact absurd (full _ made.nonzero) made.fresh
    | exhausted unchanged => exact ⟨next, _, acted⟩

theorem Sound.destroyed_iff {state : State} (sound : state.Sound)
    (view : UInt16) :
    (∃ next, state.act (.destroy view) = some (next, .done (.ok ()))) ↔
      state.Destroyable view := by
  constructor
  · intro ⟨next, acted⟩
    cases sound.outcome acted with
    | destroyed destroyable gone => exact destroyable
  · intro destroyable
    obtain ⟨next, reply, acted, outcome⟩ := sound.act_outcome (.destroy view)
    cases outcome with
    | destroyed _ gone => exact ⟨next, acted⟩
    | kept needed => exact absurd destroyable needed

/-- What every call can rely on. -/
structure Managed (state : State) : Prop where
  sound : state.Sound
  listed : ∃ views,
    state.act (.views (.ok ())) = some (state, .listed (.ok views)) ∧
      views.Pairwise (· < ·) ∧ (∀ view, view ∈ views ↔ state.Live view) ∧
      views.length = state.viewCount
  created : ∀ next view,
    state.act .create = some (next, .created (.ok view)) →
      Created state next view
  exhausted : (∃ next error,
    state.act .create = some (next, .created (.error error))) ↔
      ∀ view, view ≠ 0 → state.Live view
  destroyable : ∀ view,
    (∃ next, state.act (.destroy view) = some (next, .done (.ok ()))) ↔
      state.Live view ∧ view ≠ 0 ∧ view ≠ state.active
  destroyed : ∀ view next,
    state.act (.destroy view) = some (next, .done (.ok ())) →
      Destroyed state next view
  failed : ∀ call next reply, state.act call = some (next, reply) →
    reply.failed = true →
      (∀ view, next.Live view ↔ state.Live view) ∧
        next.active = state.active

theorem managed_of_run {labels : List (Call × Reply)} {final : State}
    (run : Run (Answers act) new labels final) : final.Managed := by
  have sound := sound_of_run run
  constructor
  · exact sound
  · obtain ⟨views, listed, ascending, members, length⟩ := listViews_spec sound
    refine ⟨views, ?_, ascending, members, length⟩
    rw [act, listed]
  · intro next view acted
    cases sound.outcome acted with
    | created made => exact made
  · exact sound.exhausted_iff
  · exact sound.destroyed_iff
  · intro view next acted
    cases sound.outcome acted with
    | destroyed destroyable gone => exact gone
  · intro call next reply acted failed
    have unchanged := (sound.outcome acted).unchanged failed
    exact ⟨unchanged.live_iff, unchanged.active⟩

/-- The search stops where it starts, if that identifier is free. -/
theorem create_of_free {state : State} (sound : state.Sound)
    (free : ¬ state.Live state.next) :
    state.create.2 = .ok state.next := by
  unfold create
  rw [createFrom]
  split
  · rename_i error result
    exact absurd result (round_ok sound)
  · rfl
  · rename_i later result
    exact absurd (round_passed sound result).1 free

/-- The first view is created, switched to, and not destroyed while active. -/
theorem managed_of_run_active_view : ∃ final error,
    Run (Answers act) new
      [(.create, .created (.ok 1)), (.switchView 1, .done (.ok ())),
        (.destroy 1, .done (.error error))] final ∧
      final.active = 1 ∧ final.Live 1 := by
  have free : ¬ new.Live new.next := by
    simp [Live, new]
  have acted : new.act .create = some (new.create.1, .created (.ok 1)) :=
    congrArg (fun result => some (new.create.1, Reply.created result))
      (create_of_free sound_new free)
  have made := (managed_of_run .nil).created _ _ acted
  have live : new.create.1.Live 1 := (made.live 1).mpr (.inl rfl)
  obtain ⟨_, switched⟩ | ⟨dead, _⟩ := switchView_spec new.create.1 1
  · have moved : new.create.1.act (.switchView 1) =
        some ({ new.create.1 with active := 1 }, .done (.ok ())) := by
      rw [act, switched]
    exact ⟨_, _, .cons acted (.cons moved (.cons rfl .nil)), rfl, live⟩
  · exact absurd live dead

end State

end LibVmi.Views
