import LibVmi.Data.Runs
import LibVmi.Driver

namespace LibVmi.Events

open Data

/-! The event queue. Every critical section is one step, and a call of
`next_event` is as many of them as it takes wake-ups. -/

structure State where
  events : List VmiEvent
  closed : Bool
  deriving DecidableEq, Repr

structure EventQueue where
  capacity : Nat
  state : State
  deriving DecidableEq, Repr

/-- What a critical section of `next_event` comes to. -/
inductive Attempt where
  | returned (event : Option VmiEvent)
  | waiting
  deriving DecidableEq, Repr

namespace EventQueue

/-- `reserved` is the outcome of allocating the queue. -/
def new (capacity : Nat) (reserved : Except String Unit) :
    Result EventQueue := do
  rejectIf (capacity = 0) (.backend "event queue capacity must be non-zero")
  match reserved with
  | .error error =>
      .error (.backend ("failed to allocate event queue capacity " ++
        toString capacity ++ ": " ++ error))
  | .ok () => .ok ⟨capacity, ⟨[], false⟩⟩

def push (self : EventQueue) (event : VmiEvent) : EventQueue × Result Unit :=
  if self.state.closed then
    (self, .error (.backend "event queue is closed"))
  else if self.state.events.length = self.capacity then
    (self, .error (.backend ("event queue capacity " ++
      toString self.capacity ++ " exceeded")))
  else
    (⟨self.capacity, ⟨self.state.events ++ [event], self.state.closed⟩⟩,
      .ok ())

def close (self : EventQueue) : EventQueue :=
  ⟨self.capacity, ⟨self.state.events, true⟩⟩

/-- The body of the loop of `next_event` down to the wait. -/
def examine (self : EventQueue) (deadline : Option Nat) (now : Nat) :
    EventQueue × Attempt :=
  match self.state.events with
  | event :: rest =>
      (⟨self.capacity, ⟨rest, self.state.closed⟩⟩, .returned (some event))
  | [] =>
      if self.state.closed then
        (self, .returned none)
      else
        match deadline with
        | some deadline =>
            if deadline ≤ now then (self, .returned none) else (self, .waiting)
        | none => (self, .waiting)

/-- What follows a wake-up, with the lock taken again. -/
def awaken (self : EventQueue) (deadline : Option Nat) (timedOut : Bool)
    (now : Nat) : EventQueue × Attempt :=
  if timedOut ∧ self.state.events = [] ∧ deadline.isSome then
    (self, .returned none)
  else
    self.examine deadline now

end EventQueue

/-- `Instant::now().checked_add(timeout)`, for a clock that ends. -/
def deadlineOf (clockEnd started timeout : Nat) : Option Nat :=
  if started + timeout ≤ clockEnd then some (started + timeout) else none

/-! Any number of callers share the queue. A caller inside `next_event` waits
with its deadline. -/

structure System (κ : Type) where
  queue : EventQueue
  waiting : κ → Option (Option Nat)

inductive Action (κ : Type) where
  | push (event : VmiEvent)
  | close
  | nextEvent (caller : κ) (started timeout now : Nat)
  | wake (caller : κ) (timedOut : Bool) (now : Nat)

inductive Response where
  | pushed (result : Result Unit)
  | closed
  | attempted (outcome : Attempt)
  deriving DecidableEq

namespace System

variable {κ : Type} [DecidableEq κ]

/-- A caller waits on, or has its answer. -/
def settle (system : System κ) (caller : κ) (deadline : Option Nat) :
    EventQueue × Attempt → System κ × Response
  | (queue, .waiting) =>
      (⟨queue, fun other => if other = caller then some deadline
        else system.waiting other⟩, .attempted .waiting)
  | (queue, .returned event) =>
      (⟨queue, fun other => if other = caller then none
        else system.waiting other⟩, .attempted (.returned event))

def act (clockEnd : Nat) (system : System κ) :
    Action κ → Option (System κ × Response)
  | .push event =>
      let (queue, result) := system.queue.push event
      some (⟨queue, system.waiting⟩, .pushed result)
  | .close => some (⟨system.queue.close, system.waiting⟩, .closed)
  | .nextEvent caller started timeout now =>
      match system.waiting caller with
      | some _ => none
      | none =>
          let deadline := deadlineOf clockEnd started timeout
          some (system.settle caller deadline
            (system.queue.examine deadline now))
  | .wake caller timedOut now =>
      match system.waiting caller with
      | none => none
      | some deadline =>
          some (system.settle caller deadline
            (system.queue.awaken deadline timedOut now))

def initial (κ : Type) (queue : EventQueue) : System κ :=
  ⟨queue, fun _ => none⟩

end System

/-! What a history of calls says. -/

section History

variable {κ : Type}

def acceptedBy : Action κ × Response → Option VmiEvent
  | (.push event, .pushed (.ok ())) => some event
  | _ => none

def attemptOf : Action κ × Response → Option Attempt
  | (_, .attempted outcome) => some outcome
  | _ => none

def deliveredBy : Action κ × Response → Option VmiEvent
  | (_, .attempted (.returned event)) => event
  | _ => none

/-- The events whose push returned `Ok`, in push order. -/
def accepted (labels : List (Action κ × Response)) : List VmiEvent :=
  labels.filterMap acceptedBy

/-- The events that `next_event` returned, in the order of their pops. -/
def delivered (labels : List (Action κ × Response)) : List VmiEvent :=
  labels.filterMap deliveredBy

def attempts (labels : List (Action κ × Response)) : List Attempt :=
  labels.filterMap attemptOf

/-- Answers that first give what remains, and then nothing. -/
def drained (remaining : List VmiEvent) (count : Nat) : List Attempt :=
  (remaining.take count).map (fun event => .returned (some event)) ++
    List.replicate (count - remaining.length) (.returned none)

end History

/-! What one critical section does to the queue. -/

inductive Effect {κ : Type} (queue : EventQueue) :
    Action κ × Response → EventQueue → Prop
  | accepted {event : VmiEvent} (opened : queue.state.closed = false)
      (room : queue.state.events.length ≠ queue.capacity) :
      Effect queue (.push event, .pushed (.ok ()))
        ⟨queue.capacity, ⟨queue.state.events ++ [event], false⟩⟩
  | refused {event : VmiEvent} {error : VmiError} :
      Effect queue (.push event, .pushed (.error error)) queue
  | closed : Effect queue (.close, .closed)
      ⟨queue.capacity, ⟨queue.state.events, true⟩⟩
  | popped {action : Action κ} {event : VmiEvent} {rest : List VmiEvent}
      (queued : queue.state.events = event :: rest) :
      Effect queue (action, .attempted (.returned (some event)))
        ⟨queue.capacity, ⟨rest, queue.state.closed⟩⟩
  | missed {action : Action κ} {outcome : Attempt}
      (queued : queue.state.events = [])
      (nothing : outcome = .returned none ∨
        outcome = .waiting ∧ queue.state.closed = false) :
      Effect queue (action, .attempted outcome) queue

namespace EventQueue

variable {κ : Type}

theorem push_effect (queue : EventQueue) (event : VmiEvent) :
    Effect queue
      ((.push event, .pushed (queue.push event).2) : Action κ × Response)
      (queue.push event).1 := by
  unfold push
  by_cases closed : queue.state.closed
  · rw [if_pos closed]
    exact .refused
  · rw [if_neg closed]
    rw [Bool.not_eq_true] at closed
    by_cases full : queue.state.events.length = queue.capacity
    · rw [if_pos full]
      exact .refused
    · rw [if_neg full, closed]
      exact .accepted closed full

/-- An open queue takes what it has room for. -/
theorem push_eq_ok {queue : EventQueue} {event : VmiEvent} :
    (queue.push event).2 = .ok () ↔ queue.state.closed = false ∧
      queue.state.events.length ≠ queue.capacity := by
  unfold push
  by_cases closed : queue.state.closed
  · simp [closed]
  · by_cases full : queue.state.events.length = queue.capacity
    · simp [closed, full]
    · simp [closed, full]

theorem examine_effect (queue : EventQueue) (deadline : Option Nat)
    (now : Nat) (action : Action κ) :
    Effect queue (action, .attempted (queue.examine deadline now).2)
      (queue.examine deadline now).1 := by
  unfold examine
  cases queued : queue.state.events with
  | cons event rest => exact .popped queued
  | nil =>
      simp only
      by_cases closed : queue.state.closed
      · rw [if_pos closed]
        exact .missed queued (.inl rfl)
      · rw [if_neg closed]
        rw [Bool.not_eq_true] at closed
        cases deadline with
        | none => exact .missed queued (.inr ⟨rfl, closed⟩)
        | some deadline =>
            simp only
            by_cases expired : deadline ≤ now
            · rw [if_pos expired]
              exact .missed queued (.inl rfl)
            · rw [if_neg expired]
              exact .missed queued (.inr ⟨rfl, closed⟩)

/-- A wake-up gives up only where there is nothing to return. -/
theorem awaken_effect (queue : EventQueue) (deadline : Option Nat)
    (timedOut : Bool) (now : Nat) (action : Action κ) :
    Effect queue (action, .attempted (queue.awaken deadline timedOut now).2)
      (queue.awaken deadline timedOut now).1 := by
  unfold awaken
  by_cases expired : timedOut ∧ queue.state.events = [] ∧ deadline.isSome
  · rw [if_pos expired]
    exact .missed expired.2.1 (.inl rfl)
  · rw [if_neg expired]
    exact examine_effect queue deadline now action

end EventQueue

section Runs

variable {κ : Type} [DecidableEq κ]

theorem System.settle_effect {system : System κ} {caller : κ}
    {deadline : Option Nat} {action : Action κ}
    {result : EventQueue × Attempt}
    (effect : Effect system.queue (action, .attempted result.2) result.1) :
    Effect system.queue (action, (system.settle caller deadline result).2)
      (system.settle caller deadline result).1.queue := by
  obtain ⟨queue, outcome⟩ := result
  cases outcome with
  | waiting => exact effect
  | returned event => exact effect

theorem System.act_effect {clockEnd : Nat} {system next : System κ}
    {label : Action κ × Response}
    (step : Answers (System.act clockEnd) system label next) :
    Effect system.queue label next.queue := by
  obtain ⟨action, response⟩ := label
  simp only [Answers] at step
  cases action with
  | push event =>
      obtain ⟨rfl, rfl⟩ := Prod.mk.inj (Option.some.inj step)
      exact system.queue.push_effect event
  | close =>
      obtain ⟨rfl, rfl⟩ := Prod.mk.inj (Option.some.inj step)
      exact .closed
  | nextEvent caller started timeout now =>
      simp only [System.act] at step
      split at step
      · contradiction
      · obtain ⟨rfl, rfl⟩ := Prod.mk.inj (Option.some.inj step)
        exact System.settle_effect
          (system.queue.examine_effect _ now _)
  | wake caller timedOut now =>
      simp only [System.act] at step
      split at step
      · contradiction
      · rename_i deadline _
        obtain ⟨rfl, rfl⟩ := Prod.mk.inj (Option.some.inj step)
        exact System.settle_effect
          (system.queue.awaken_effect deadline timedOut now _)

end Runs

/-! Every run. What has been delivered and what is still queued are together
what has been accepted. -/

section Accounting

variable {κ : Type}

@[simp] theorem accepted_append (early late : List (Action κ × Response)) :
    accepted (early ++ late) = accepted early ++ accepted late :=
  List.filterMap_append

@[simp] theorem delivered_append (early late : List (Action κ × Response)) :
    delivered (early ++ late) = delivered early ++ delivered late :=
  List.filterMap_append

@[simp] theorem attempts_cons (label : Action κ × Response)
    (labels : List (Action κ × Response)) :
    attempts (label :: labels) = (attemptOf label).toList ++ attempts labels := by
  unfold attempts
  cases found : attemptOf label <;> simp [found]

@[simp] theorem acceptedBy_attempted (action : Action κ) (outcome : Attempt) :
    acceptedBy (action, .attempted outcome) = none := by
  cases action <;> rfl

@[simp] theorem acceptedBy_accepted (event : VmiEvent) :
    acceptedBy ((.push event, .pushed (.ok ())) : Action κ × Response) =
      some event := rfl

@[simp] theorem acceptedBy_refused (event : VmiEvent) (error : VmiError) :
    acceptedBy ((.push event, .pushed (.error error)) : Action κ × Response) =
      none := rfl

@[simp] theorem acceptedBy_closed :
    acceptedBy ((.close, .closed) : Action κ × Response) = none := rfl

@[simp] theorem deliveredBy_returned (action : Action κ)
    (event : Option VmiEvent) :
    deliveredBy (action, .attempted (.returned event)) = event := rfl

@[simp] theorem deliveredBy_waiting (action : Action κ) :
    deliveredBy (action, .attempted .waiting) = none := rfl

@[simp] theorem deliveredBy_pushed (action : Action κ) (result : Result Unit) :
    deliveredBy (action, .pushed result) = none := rfl

@[simp] theorem deliveredBy_closed (action : Action κ) :
    deliveredBy (action, .closed) = none := rfl

@[simp] theorem attemptOf_attempted (action : Action κ) (outcome : Attempt) :
    attemptOf (action, .attempted outcome) = some outcome := rfl

@[simp] theorem attemptOf_pushed (action : Action κ) (result : Result Unit) :
    attemptOf (action, .pushed result) = none := rfl

@[simp] theorem attemptOf_closed (action : Action κ) :
    attemptOf (action, .closed) = none := rfl

@[simp] theorem drained_zero (remaining : List VmiEvent) :
    drained remaining 0 = [] := by
  simp [drained]

@[simp] theorem drained_cons (event : VmiEvent) (rest : List VmiEvent)
    (count : Nat) :
    drained (event :: rest) (count + 1) =
      .returned (some event) :: drained rest count := by
  simp [drained]

@[simp] theorem drained_nil (count : Nat) :
    drained [] (count + 1) = .returned none :: drained [] count := by
  simp [drained, List.replicate_succ]

structure Accounted (capacity : Nat) (labels : List (Action κ × Response))
    (queue : EventQueue) : Prop where
  capacityEq : queue.capacity = capacity
  bounded : queue.state.events.length ≤ capacity
  inOrder : delivered labels ++ queue.state.events = accepted labels

theorem Accounted.step {capacity : Nat} {past : List (Action κ × Response)}
    {queue next : EventQueue} {label : Action κ × Response}
    (accounted : Accounted capacity past queue)
    (effect : Effect queue label next) :
    Accounted capacity (past ++ [label]) next := by
  obtain ⟨rfl, bounded, inOrder⟩ := accounted
  constructor
  · cases effect <;> rfl
  · cases effect with
    | accepted _ room =>
        simp only [List.length_append, List.length_singleton]
        omega
    | refused => exact bounded
    | closed => exact bounded
    | popped queued =>
        rw [queued, List.length_cons] at bounded
        exact Nat.le_of_succ_le bounded
    | missed => exact bounded
  · rw [delivered_append, accepted_append, ← inOrder]
    cases effect with
    | accepted => simp [delivered, accepted]
    | refused => simp [delivered, accepted, List.filterMap_cons]
    | closed => simp [delivered, accepted, List.filterMap_cons]
    | popped queued => simp [delivered, accepted, queued]
    | missed queued nothing =>
        rcases nothing with rfl | ⟨rfl, _⟩ <;>
          simp [delivered, accepted, queued]

variable [DecidableEq κ] {clockEnd : Nat}

theorem accounted_of_run {capacity : Nat} {reserved : Except String Unit}
    {queue : EventQueue} (created : EventQueue.new capacity reserved = .ok queue)
    {labels : List (Action κ × Response)} {final : System κ}
    (run : Run (Answers (System.act clockEnd)) (System.initial κ queue) labels
      final) : Accounted capacity labels final.queue := by
  have start : Accounted capacity ([] : List (Action κ × Response)) queue := by
    unfold EventQueue.new at created
    obtain ⟨_, _, built⟩ := bind_eq_ok.mp created
    cases reserved with
    | error error => contradiction
    | ok done =>
        obtain rfl := Except.ok.inj built
        exact ⟨rfl, Nat.zero_le capacity, rfl⟩
  have kept : ∀ (past : List (Action κ × Response)) (current : System κ) label
      next, Accounted capacity past current.queue →
      Answers (System.act clockEnd) current label next →
      Accounted capacity (past ++ [label]) next.queue := by
    intro past current label next accounted step
    exact accounted.step (System.act_effect step)
  exact run.history (fun past current => Accounted capacity past current.queue)
    kept start

/-- A closed queue stays closed, accepts nothing, and answers with what it still
holds and then with nothing. -/
theorem closed_run {current final : System κ}
    {labels : List (Action κ × Response)}
    (run : Run (Answers (System.act clockEnd)) current labels final)
    (closed : current.queue.state.closed = true) :
    accepted labels = [] ∧
      attempts labels =
        drained current.queue.state.events (attempts labels).length := by
  induction run with
  | nil => exact ⟨rfl, (drained_zero _).symm⟩
  | @cons current next final label rest step run induction =>
      have effect := System.act_effect step
      generalize next.queue = after at effect induction
      cases effect with
      | accepted opened => exact absurd closed (by simp [opened])
      | refused => simpa [accepted] using induction closed
      | closed => simpa [accepted] using induction rfl
      | popped queued =>
          obtain ⟨nothing, answers⟩ := induction closed
          rw [queued]
          simpa [accepted, ← answers] using nothing
      | missed queued nothing =>
          obtain ⟨refused, answers⟩ := induction closed
          have ended : _ = Attempt.returned none :=
            nothing.resolve_right fun waits => by simp [closed] at waits
          rw [queued] at answers ⊢
          simpa [accepted, ended, ← answers] using refused

/-- Each accepted event is delivered once and in order, whatever the
interleaving of the critical sections, and an open queue accepts events as long
as it has room for them. -/
theorem event_queue_delivers {capacity : Nat} {reserved : Except String Unit}
    {queue : EventQueue} (created : EventQueue.new capacity reserved = .ok queue)
    {labels : List (Action κ × Response)} {final : System κ}
    (run : Run (Answers (System.act clockEnd)) (System.initial κ queue) labels
      final) :
    final.queue.state.events.length ≤ capacity ∧
    delivered labels ++ final.queue.state.events = accepted labels ∧
    (∀ event error next,
      System.act clockEnd final (.push event) =
        some (next, .pushed (.error error)) → next.queue = final.queue) ∧
    (∀ event, (∃ next, System.act clockEnd final (.push event) =
        some (next, .pushed (.ok ()))) ↔
      final.queue.state.closed = false ∧
        final.queue.state.events.length < capacity) ∧
    ∀ early late, labels = early ++ (.close, .closed) :: late →
      accepted late = [] ∧
      attempts late =
        drained ((accepted early).drop (delivered early).length)
          (attempts late).length := by
  have accounted := accounted_of_run created run
  refine ⟨accounted.bounded, accounted.inOrder, ?_, ?_, ?_⟩
  · intro event error next refused
    have effect := System.act_effect
      (show Answers (System.act clockEnd) final (.push event, _) next from
        refused)
    generalize next.queue = after at effect
    cases effect
    rfl
  · intro event
    have room : final.queue.state.events.length < capacity ↔
        final.queue.state.events.length ≠ final.queue.capacity := by
      have bounded := accounted.bounded
      have capacityEq := accounted.capacityEq
      omega
    rw [room, ← @EventQueue.push_eq_ok final.queue event]
    simp [System.act]
  · intro early late parts
    subst parts
    obtain ⟨middle, before, after⟩ := run.split
    have earlier := (accounted_of_run created before).inOrder
    cases after with
    | cons step later =>
        simp only [Answers, System.act, Option.some.injEq,
          Prod.mk.injEq] at step
        obtain ⟨rfl, _⟩ := step
        have outcome := closed_run later rfl
        rw [← earlier, List.drop_left]
        exact outcome

end Accounting

/-- A caller that waits, is passed an event while its wait runs out, and a queue
that is full in between and closed at the end. -/
def lateWakeUp (event other : VmiEvent) : List (Action Bool × Response) :=
  [(.nextEvent false 0 5 0, .attempted .waiting),
    (.push event, .pushed (.ok ())),
    (.push other,
      .pushed (.error (.backend
        ("event queue capacity " ++ toString 1 ++ " exceeded")))),
    (.wake false true 6, .attempted (.returned (some event))),
    (.close, .closed),
    (.nextEvent true 7 5 7, .attempted (.returned none))]

theorem lateWakeUp_run (event other : VmiEvent) :
    ∃ final, Run (Answers (System.act 100))
        (System.initial Bool ⟨1, ⟨[], false⟩⟩) (lateWakeUp event other) final ∧
      final.queue.state.events = [] :=
  ⟨_, .cons rfl (.cons rfl (.cons rfl (.cons rfl (.cons rfl (.cons rfl
    .nil))))), rfl⟩

theorem event_queue_delivers_late_wake_up :
    ∃ final, Run (Answers (System.act 100))
        (System.initial Bool ⟨1, ⟨[], false⟩⟩)
        (lateWakeUp ⟨"ready", none, none⟩ ⟨"late", none, none⟩) final ∧
      delivered (lateWakeUp ⟨"ready", none, none⟩ ⟨"late", none, none⟩) =
        [⟨"ready", none, none⟩] := by
  have created : EventQueue.new 1 (.ok ()) = .ok ⟨1, ⟨[], false⟩⟩ := rfl
  obtain ⟨final, run, emptied⟩ :=
    lateWakeUp_run ⟨"ready", none, none⟩ ⟨"late", none, none⟩
  have inOrder := (event_queue_delivers created run).2.1
  rw [emptied, List.append_nil] at inOrder
  exact ⟨final, run, inOrder⟩

end LibVmi.Events
