import LibVmi.Qemu.Qmp

namespace LibVmi.Qemu

open Data

/-! What a call reads, and where the events it reads go. -/

def arrivals (reads : List (Result Json)) : List VmiEvent :=
  reads.filterMap fun result => result.toOption.bind qmpEvent

@[simp] theorem arrivals_nil : arrivals [] = [] := rfl

@[simp] theorem arrivals_append (first second : List (Result Json)) :
    arrivals (first ++ second) = arrivals first ++ arrivals second :=
  List.filterMap_append

theorem arrivals_ok (message : Json) :
    arrivals [.ok message] = (qmpEvent message).toList := by
  cases recognised : qmpEvent message with
  | none => simp [arrivals, Except.toOption, recognised]
  | some event => simp [arrivals, Except.toOption, recognised]

theorem enqueueEvent_eq_ok {events grown : List VmiEvent} {event : VmiEvent} :
    enqueueEvent events event = .ok grown ↔
      events.length ≠ eventQueueCapacity ∧ grown = events ++ [event] := by
  unfold enqueueEvent
  split <;> simp_all [eq_comm]

theorem enqueueEvent_eq_error {events : List VmiEvent} {event : VmiEvent}
    {error : VmiError} (rejected : enqueueEvent events event = .error error) :
    error = queueOverflow := by
  unfold enqueueEvent at rejected
  split at rejected
  · exact (Except.error.inj rejected).symm
  · cases rejected

namespace QmpClient

/-- Between two states of the client these reads were made, and nothing else
changed but its queue. -/
structure Reads (before : QmpClient) (reads : List (Result Json))
    (after : QmpClient) : Prop where
  incoming_eq : before.incoming = reads ++ after.incoming
  nextId_eq : after.nextId = before.nextId

theorem Reads.refl (client : QmpClient) : Reads client [] client :=
  ⟨rfl, rfl⟩

theorem Reads.trans {first second third : QmpClient}
    {early late : List (Result Json)} (before : Reads first early second)
    (after : Reads second late third) : Reads first (early ++ late) third := by
  constructor
  · rw [before.incoming_eq, after.incoming_eq, List.append_assoc]
  · rw [after.nextId_eq, before.nextId_eq]

theorem Reads.requeue {before after : QmpClient} {reads : List (Result Json)}
    (made : Reads before reads after) (events : List VmiEvent) :
    Reads before reads { after with events } :=
  ⟨made.incoming_eq, made.nextId_eq⟩

theorem Reads.shorter {before after : QmpClient} {result : Result Json}
    {count : Nat} (made : Reads before [result] after)
    (bound : before.incoming.length < count + 1) :
    after.incoming.length < count := by
  rw [made.incoming_eq, List.singleton_append, List.length_cons] at bound
  exact Nat.lt_of_succ_lt_succ bound

/-- What one turn receives was read from the peer, unless nothing was read. -/
theorem receive_reads {client next : QmpClient} {deadline : Option Nat}
    {turn : Turn} {received : Received}
    (reached : client.receive deadline turn = (received, next)) :
    ∃ reads, Reads client reads next ∧ next.events = client.events ∧
      ((∃ result, received = .read result ∧ reads = [result]) ∨
        reads = [] ∧ ∀ result, received = .read result →
          result = .error connectionClosed) := by
  unfold receive at reached
  split at reached
  · cases reached
    exact ⟨[], .refl _, rfl, .inr ⟨rfl, by simp⟩⟩
  · split at reached
    · cases reached
      exact ⟨[], .refl _, rfl, .inr ⟨rfl, by simp⟩⟩
    · unfold readJson at reached
      cases pending : client.incoming with
      | nil =>
          simp only [pending] at reached
          cases reached
          exact ⟨[], .refl _, rfl, .inr ⟨rfl, by simp [eq_comm]⟩⟩
      | cons result rest =>
          simp only [pending] at reached
          cases reached
          exact ⟨[result], ⟨pending, rfl⟩, rfl, .inl ⟨result, rfl, rfl⟩⟩

theorem receive_message {client next : QmpClient} {deadline : Option Nat}
    {turn : Turn} {message : Json}
    (reached : client.receive deadline turn = (.read (.ok message), next)) :
    Reads client [.ok message] next ∧ next.events = client.events := by
  obtain ⟨reads, made, kept, ⟨result, same, rfl⟩ | ⟨_, silent⟩⟩ :=
    receive_reads reached
  · cases same
    exact ⟨made, kept⟩
  · cases silent _ rfl

/-- A turn that hands over no message leaves the events as they are. -/
theorem receive_silent {client next : QmpClient} {deadline : Option Nat}
    {turn : Turn} {received : Received}
    (reached : client.receive deadline turn = (received, next))
    (silent : ∀ message, received ≠ .read (.ok message)) :
    ∃ reads, Reads client reads next ∧ next.events = client.events ∧
      arrivals reads = [] := by
  obtain ⟨reads, made, kept, ⟨result, rfl, rfl⟩ | ⟨rfl, _⟩⟩ :=
    receive_reads reached
  · refine ⟨_, made, kept, ?_⟩
    cases result with
    | error error => rfl
    | ok message => exact absurd rfl (silent message)
  · exact ⟨[], made, kept, rfl⟩

/-- The message answers the request of that number with the value. -/
structure Answers (id : UInt64) (response value : Json) : Prop where
  not_event : qmpEvent response = none
  id_eq : (response.get "id").bind Json.asU64 = some id
  no_error : response.get "error" = none
  value_eq : value = (response.get "return").getD .null

/-- What a waiting `execute` leaves behind: every event it read is queued, and
what it returns answers its request. -/
structure Waited (id : UInt64) (before : QmpClient)
    (outcome : Option (Result Json)) (reads : List (Result Json))
    (after : QmpClient) : Prop where
  made : Reads before reads after
  queued : outcome ≠ some (.error queueOverflow) →
    after.events = before.events ++ arrivals reads
  answered : ∀ value, outcome = some (.ok value) →
    ∃ response, .ok response ∈ reads ∧ Answers id response value

theorem Waited.silent {id : UInt64} {before after : QmpClient}
    {outcome : Option (Result Json)} {reads : List (Result Json)}
    (made : Reads before reads after) (kept : after.events = before.events)
    (none : arrivals reads = [])
    (failed : ∀ value, outcome ≠ some (.ok value)) :
    Waited id before outcome reads after where
  made := made
  queued := by
    intro _
    rw [kept, none, List.append_nil]
  answered := fun value returned => absurd returned (failed value)

/-- One more message was read first, and its event, if it has one, queued. -/
theorem Waited.after_message {id : UInt64} {before next after : QmpClient}
    {outcome : Option (Result Json)} {reads : List (Result Json)}
    {message : Json} (made : Reads before [.ok message] next)
    (queued : next.events = before.events ++ (qmpEvent message).toList)
    (rest : Waited id next outcome reads after) :
    Waited id before outcome (.ok message :: reads) after where
  made := made.trans rest.made
  queued := by
    intro fits
    rw [rest.queued fits, queued, List.append_assoc, ← arrivals_ok,
      ← arrivals_append, List.singleton_append]
  answered := by
    intro value returned
    obtain ⟨response, member, answers⟩ := rest.answered value returned
    exact ⟨response, List.mem_cons_of_mem _ member, answers⟩

theorem awaitReply_waited {toText : Json → String} {command : String}
    {id : UInt64} {deadline : Option Nat} {turns : List Turn}
    {client after : QmpClient} {outcome : Option (Result Json)}
    (reached : awaitReply toText command id deadline turns client =
      (outcome, after)) :
    ∃ reads, Waited id client outcome reads after := by
  induction turns generalizing client with
  | nil =>
      cases reached
      exact ⟨[], .silent (.refl _) rfl rfl (by simp)⟩
  | cons turn turns induction =>
      unfold awaitReply at reached
      split at reached
      · rename_i next received
        cases reached
        obtain ⟨reads, made, kept, none⟩ := receive_silent received (by simp)
        exact ⟨reads, .silent made kept none (by simp)⟩
      · rename_i error next received
        cases reached
        obtain ⟨reads, made, kept, none⟩ := receive_silent received (by simp)
        exact ⟨reads, .silent made kept none (by simp)⟩
      · rename_i error next received
        obtain ⟨reads, made, kept, none⟩ := receive_silent received (by simp)
        refine ⟨reads, ?_⟩
        split at reached <;> cases reached <;>
          exact .silent made kept none (by simp)
      · rename_i response next received
        obtain ⟨made, kept⟩ := receive_message received
        split at reached
        · rename_i event recognised
          split at reached
          · rename_i error rejected
            cases reached
            refine ⟨_, made, ?_, by simp⟩
            intro fits
            rw [enqueueEvent_eq_error rejected] at fits
            exact absurd rfl fits
          · rename_i events accepted
            obtain ⟨reads, waited⟩ := induction reached
            refine ⟨_, Waited.after_message (made.requeue events) ?_ waited⟩
            rw [recognised, ← kept]
            exact (enqueueEvent_eq_ok.mp accepted).2
        · rename_i unrecognised
          split at reached
          · obtain ⟨reads, waited⟩ := induction reached
            refine ⟨_, Waited.after_message made ?_ waited⟩
            rw [unrecognised, kept]
            simp
          · rename_i matched
            have kept : next.events =
                client.events ++ arrivals [.ok response] := by
              rw [arrivals_ok, unrecognised, kept]
              simp
            split at reached
            · cases reached
              exact ⟨_, made, fun _ => kept, by simp⟩
            · rename_i clean
              cases reached
              refine ⟨_, made, fun _ => kept, ?_⟩
              intro value returned
              cases returned
              exact ⟨response, List.mem_singleton_self _,
                unrecognised, not_not.mp matched, clean, rfl⟩

/-- A reply that `next_event` passes over holds no event, and the event that it
returns is the only one it read. -/
theorem awaitEvent_delivers {deadline : Option Nat} {turns : List Turn}
    {client after : QmpClient} {outcome : Option (Result (Option VmiEvent))}
    (reached : awaitEvent deadline turns client = (outcome, after)) :
    ∃ reads, Reads client reads after ∧ after.events = client.events ∧
      arrivals reads =
        (outcome.bind fun result => result.toOption.join).toList := by
  induction turns generalizing client with
  | nil =>
      cases reached
      exact ⟨[], .refl _, rfl, rfl⟩
  | cons turn turns induction =>
      unfold awaitEvent at reached
      split at reached
      · rename_i next received
        cases reached
        exact receive_silent received (by simp)
      · rename_i error next received
        cases reached
        exact receive_silent received (by simp)
      · rename_i error next received
        obtain ⟨reads, made, kept, none⟩ := receive_silent received (by simp)
        split at reached
        · split at reached
          · cases reached
            exact ⟨reads, made, kept, none⟩
          · obtain ⟨later, madeLater, keptLater, delivered⟩ := induction reached
            refine ⟨reads ++ later, made.trans madeLater,
              keptLater.trans kept, ?_⟩
            rw [arrivals_append, none, List.nil_append, delivered]
        · cases reached
          exact ⟨reads, made, kept, none⟩
      · rename_i message next received
        obtain ⟨made, kept⟩ := receive_message received
        split at reached
        · rename_i event recognised
          cases reached
          refine ⟨_, made, kept, ?_⟩
          rw [arrivals_ok, recognised]
          rfl
        · rename_i unrecognised
          obtain ⟨later, madeLater, keptLater, delivered⟩ := induction reached
          refine ⟨_, made.trans madeLater, keptLater.trans kept, ?_⟩
          rw [arrivals_append, arrivals_ok, unrecognised, delivered]
          rfl

theorem nextEvent_delivers {client after : QmpClient} {timeout start : Nat}
    {turns : List Turn} {outcome : Option (Result (Option VmiEvent))}
    (reached : client.nextEvent timeout start turns = (outcome, after)) :
    ∃ reads, Reads client reads after ∧
      (outcome.bind fun result => result.toOption.join).toList ++
        after.events = client.events ++ arrivals reads := by
  unfold nextEvent at reached
  split at reached
  · rename_i event events queued
    cases reached
    refine ⟨[], ⟨rfl, rfl⟩, ?_⟩
    rw [queued, arrivals_nil, List.append_nil]
    rfl
  · rename_i empty
    split at reached
    · cases reached
      exact ⟨[], .refl _, by rw [empty]; rfl⟩
    · obtain ⟨reads, made, kept, delivered⟩ := awaitEvent_delivers reached
      refine ⟨reads, made, ?_⟩
      rw [kept, empty, ← delivered, List.append_nil, List.nil_append]

/-- Each turn of a waiting loop returns or takes one more report from the peer,
and a closed connection is an error, so the loops end. -/
theorem awaitReply_returns (toText : Json → String) (command : String)
    (id : UInt64) (deadline : Option Nat) {turns : List Turn}
    {client : QmpClient} (enough : client.incoming.length < turns.length) :
    (awaitReply toText command id deadline turns client).1.isSome := by
  induction turns generalizing client with
  | nil => simp at enough
  | cons turn turns induction =>
      unfold awaitReply
      split
      · rfl
      · rfl
      · split <;> rfl
      · rename_i response next received
        have shorter := (receive_message received).1.shorter enough
        split
        · split
          · rfl
          · exact induction shorter
        · split
          · exact induction shorter
          · split <;> rfl

theorem awaitEvent_returns (deadline : Option Nat) {turns : List Turn}
    {client : QmpClient} (enough : client.incoming.length < turns.length) :
    (awaitEvent deadline turns client).1.isSome := by
  induction turns generalizing client with
  | nil => simp at enough
  | cons turn turns induction =>
      have shorter {result : Result Json} {next : QmpClient}
          (received : client.receive deadline turn = (.read result, next))
          (heard : result ≠ .error connectionClosed) :
          next.incoming.length < turns.length := by
        obtain ⟨reads, made, _, ⟨_, _, rfl⟩ | ⟨_, closed⟩⟩ :=
          receive_reads received
        · exact made.shorter enough
        · exact absurd (closed _ rfl) heard
      unfold awaitEvent
      split
      · rfl
      · rfl
      · rename_i error next received
        split
        · rename_i waited
          split
          · rfl
          · apply induction (shorter received _)
            rw [waited]
            simp [connectionClosed]
        · rfl
      · rename_i message next received
        split
        · rfl
        · exact induction (shorter received (by simp))

/-- A request number is taken, or the numbers are exhausted and nothing else
happens. -/
theorem execute_cases {client after : QmpClient} {toText : Json → String}
    {command : String} {arguments : Option Json} {start : Nat}
    {write : Json → Result Unit} {turns : List Turn}
    {outcome : Option (Result Json)}
    (reached : client.execute toText command arguments start write turns =
      (outcome, after)) :
    (client.nextId = none ∧ outcome = some (.error idsExhausted) ∧
        after = client) ∨
      ∃ id reads, client.nextId = some id ∧
        Waited id { client with nextId := checkedAdd id 1 } outcome reads
          after := by
  unfold execute at reached
  cases numbered : client.nextId with
  | none =>
      simp only [numbered, takeRequestId] at reached
      cases reached
      refine .inl ⟨rfl, rfl, ?_⟩
      rw [← numbered]
  | some id =>
      refine .inr ⟨id, ?_⟩
      simp only [numbered, takeRequestId] at reached
      split at reached
      · cases reached
        exact ⟨[], rfl, .silent (.refl _) rfl rfl (by simp)⟩
      · obtain ⟨reads, waited⟩ := awaitReply_waited reached
        exact ⟨reads, rfl, waited⟩

end QmpClient

end LibVmi.Qemu
