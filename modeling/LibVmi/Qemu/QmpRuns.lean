import LibVmi.Data.Runs
import LibVmi.Qemu.QmpCalls

namespace LibVmi.Qemu

open Data

/-! Calls on one client, each with what the host does during it. -/

inductive Call where
  | execute (command : String) (arguments : Option Json) (start : Nat)
      (write : Json → Result Unit) (turns : List Turn)
  | nextEvent (timeout start : Nat) (turns : List Turn)

inductive Outcome where
  | executed (id : Result UInt64) (result : Result Json)
  | polled (result : Result (Option VmiEvent))

namespace Outcome

def requestId : Outcome → Option UInt64
  | .executed (.ok id) _ => some id
  | _ => none

def delivered : Outcome → List VmiEvent
  | .polled (.ok (some event)) => [event]
  | _ => []

def overflowed : Outcome → Prop
  | .executed _ (.error error) => error = queueOverflow
  | _ => False

theorem delivered_polled (result : Result (Option VmiEvent)) :
    (Outcome.polled result).delivered = result.toOption.join.toList := by
  rcases result with _ | _ | event <;> rfl

end Outcome

/-- A returned call: what it read from the peer, and what it returned. -/
structure Exchange where
  call : Call
  reads : List (Result Json)
  outcome : Outcome

namespace Call

def turns : Call → List Turn
  | .execute _ _ _ _ turns => turns
  | .nextEvent _ _ turns => turns

variable (toText : Json → String)

def perform (client : QmpClient) : Call → Option Outcome × QmpClient
  | .execute command arguments start write turns =>
      let (result, next) :=
        client.execute toText command arguments start write turns
      (result.map (.executed (takeRequestId client.nextId).1), next)
  | .nextEvent timeout start turns =>
      let (result, next) := client.nextEvent timeout start turns
      (result.map .polled, next)

/-- The call returns, having read what the peer's list has lost. -/
def Performs (client : QmpClient) (exchange : Exchange) (next : QmpClient) :
    Prop :=
  exchange.call.perform toText client = (some exchange.outcome, next) ∧
    client.incoming = exchange.reads ++ next.incoming

variable {toText} {client next : QmpClient} {outcome : Outcome}

theorem perform_execute {command : String} {arguments : Option Json}
    {start : Nat} {write : Json → Result Unit} {turns : List Turn}
    (returned : (Call.execute command arguments start write turns).perform
      toText client = (some outcome, next)) :
    ∃ result, outcome = .executed (takeRequestId client.nextId).1 result ∧
      client.execute toText command arguments start write turns =
        (some result, next) := by
  simp only [perform, Prod.mk.injEq, Option.map_eq_some_iff] at returned
  obtain ⟨⟨result, finished, rfl⟩, reached⟩ := returned
  exact ⟨result, rfl, Prod.ext finished reached⟩

theorem perform_nextEvent {timeout start : Nat} {turns : List Turn}
    (returned : (Call.nextEvent timeout start turns).perform toText client =
      (some outcome, next)) :
    ∃ result, outcome = .polled result ∧
      client.nextEvent timeout start turns = (some result, next) := by
  simp only [perform, Prod.mk.injEq, Option.map_eq_some_iff] at returned
  obtain ⟨⟨result, finished, rfl⟩, reached⟩ := returned
  exact ⟨result, rfl, Prod.ext finished reached⟩

end Call

/-- What one returned call can do, whatever the host and the peer did. -/
inductive Transition (client : QmpClient) (reads : List (Result Json))
    (next : QmpClient) : Outcome → Prop
  | refused : client.nextId = none → reads = [] → next = client →
      Transition client reads next
        (.executed (.error idsExhausted) (.error idsExhausted))
  | executed {id : UInt64} {result : Result Json} :
      client.nextId = some id → next.nextId = checkedAdd id 1 →
      (result ≠ .error queueOverflow →
        next.events = client.events ++ arrivals reads) →
      (∀ value, result = .ok value →
        ∃ response, .ok response ∈ reads ∧
          QmpClient.Answers id response value) →
      Transition client reads next (.executed (.ok id) result)
  | polled {result : Result (Option VmiEvent)} :
      next.nextId = client.nextId →
      (Outcome.polled result).delivered ++ next.events =
        client.events ++ arrivals reads →
      Transition client reads next (.polled result)

variable {toText : Json → String} {client next final : QmpClient}
  {exchange : Exchange} {exchanges : List Exchange}

theorem transition_of_performs
    (performed : Call.Performs toText client exchange next) :
    Transition client exchange.reads next exchange.outcome := by
  obtain ⟨call, reads, outcome⟩ := exchange
  obtain ⟨returned, lost⟩ := performed
  have unique {made : List (Result Json)}
      (read : client.incoming = made ++ next.incoming) : made = reads :=
    List.append_cancel_right (read.symm.trans lost)
  cases call with
  | execute command arguments start write turns =>
      obtain ⟨result, rfl, reached⟩ := Call.perform_execute returned
      obtain ⟨exhausted, failed, same⟩ | ⟨id, made, numbered, waited⟩ :=
        QmpClient.execute_cases reached
      · cases failed
        simp only [takeRequestId, exhausted]
        refine .refused exhausted (unique ?_).symm same
        exact congrArg QmpClient.incoming same.symm
      · cases unique waited.made.incoming_eq
        simp only [takeRequestId, numbered]
        refine .executed numbered waited.made.nextId_eq ?_ ?_
        · intro fits
          exact waited.queued (by simpa using fits)
        · intro value returned
          exact waited.answered value (congrArg some returned)
  | nextEvent timeout start turns =>
      obtain ⟨result, rfl, reached⟩ := Call.perform_nextEvent returned
      obtain ⟨made, read, delivered⟩ := QmpClient.nextEvent_delivers reached
      cases unique read.incoming_eq
      refine .polled read.nextId_eq ?_
      rw [Outcome.delivered_polled, ← delivered]
      rfl

/-- Every call that returns is such an exchange. -/
theorem performs_of_perform {call : Call} {outcome : Outcome}
    (returned : call.perform toText client = (some outcome, next)) :
    ∃ reads, Call.Performs toText client ⟨call, reads, outcome⟩ next := by
  suffices taken : ∃ reads, client.incoming = reads ++ next.incoming by
    obtain ⟨reads, lost⟩ := taken
    exact ⟨reads, returned, lost⟩
  cases call with
  | execute command arguments start write turns =>
      obtain ⟨_, _, reached⟩ := Call.perform_execute returned
      obtain ⟨_, _, same⟩ | ⟨_, reads, _, waited⟩ :=
        QmpClient.execute_cases reached
      · exact ⟨[], congrArg QmpClient.incoming same.symm⟩
      · exact ⟨reads, waited.made.incoming_eq⟩
  | nextEvent timeout start turns =>
      obtain ⟨_, _, reached⟩ := Call.perform_nextEvent returned
      obtain ⟨reads, made, _⟩ := QmpClient.nextEvent_delivers reached
      exact ⟨reads, made.incoming_eq⟩

/-- A client that the handshake hands over is the fresh one after its greeting
and one request. -/
theorem initializeClient_performs {stream : List (Result Json)}
    {timeout start : Nat} {write : Json → Result Unit} {turns : List Turn}
    (connected : QmpClient.initializeClient toText stream timeout start write
      turns = some (.ok client)) :
    ∃ greeting rest exchange, stream = .ok greeting :: rest ∧
      Call.Performs toText (.fresh rest timeout) exchange client := by
  unfold QmpClient.initializeClient QmpClient.readJson at connected
  cases stream with
  | nil => cases connected
  | cons result rest =>
      cases result with
      | error error => cases connected
      | ok greeting =>
          simp only [QmpClient.fresh] at connected
          split at connected
          · cases connected
          · split at connected
            · cases connected
            · cases connected
            · rename_i value final executed
              cases connected
              have returned : Call.perform toText (.fresh rest timeout)
                  (.execute "qmp_capabilities" none start write turns) =
                  (some (.executed (.ok 1) (.ok value)), client) := by
                simp only [Call.perform, QmpClient.fresh, executed]
                rfl
              obtain ⟨reads, performed⟩ := performs_of_perform returned
              exact ⟨greeting, rest, _, rfl, performed⟩

/-! Whole runs. -/

def requestIds (exchanges : List Exchange) : List UInt64 :=
  exchanges.filterMap fun exchange => exchange.outcome.requestId

def deliveredEvents (exchanges : List Exchange) : List VmiEvent :=
  exchanges.flatMap fun exchange => exchange.outcome.delivered

def readMessages (exchanges : List Exchange) : List (Result Json) :=
  exchanges.flatMap Exchange.reads

theorem incoming_of_run
    (run : Run (Call.Performs toText) client exchanges final) :
    client.incoming = readMessages exchanges ++ final.incoming := by
  induction run with
  | nil => rfl
  | cons performed _ induction =>
      rw [performed.2, induction]
      simp only [readMessages, List.flatMap_cons, List.append_assoc]

theorem events_of_performs
    (performed : Call.Performs toText client exchange next)
    (fits : ¬ exchange.outcome.overflowed) :
    exchange.outcome.delivered ++ next.events =
      client.events ++ arrivals exchange.reads := by
  have transition := transition_of_performs performed
  generalize exchange.outcome = outcome at transition fits
  cases transition with
  | refused _ unread same =>
      rw [unread, same, arrivals_nil, List.append_nil]
      rfl
  | executed _ _ queued _ =>
      apply queued
      intro overflow
      rw [overflow] at fits
      exact fits rfl
  | polled _ delivered => exact delivered

/-- What the calls have returned, followed by what is still queued, is what was
queued at first followed by what has arrived. -/
theorem events_of_run
    (run : Run (Call.Performs toText) client exchanges final)
    (fits : ∀ exchange ∈ exchanges, ¬ exchange.outcome.overflowed) :
    deliveredEvents exchanges ++ final.events =
      client.events ++ arrivals (readMessages exchanges) := by
  induction run with
  | nil => simp [deliveredEvents, readMessages]
  | @cons client next final exchange rest performed _ induction =>
      simp only [List.mem_cons, forall_eq_or_imp] at fits
      calc
        deliveredEvents (exchange :: rest) ++ final.events =
            exchange.outcome.delivered ++
              (deliveredEvents rest ++ final.events) := by
          simp only [deliveredEvents, List.flatMap_cons, List.append_assoc]
        _ = (exchange.outcome.delivered ++ next.events) ++
              arrivals (readMessages rest) := by
          rw [induction fits.2, List.append_assoc]
        _ = client.events ++ arrivals (readMessages (exchange :: rest)) := by
          rw [events_of_performs performed fits.1]
          simp only [readMessages, List.flatMap_cons, arrivals_append,
            List.append_assoc]

theorem requestIds_cons (exchange : Exchange) (rest : List Exchange) :
    requestIds (exchange :: rest) =
      exchange.outcome.requestId.toList ++ requestIds rest := by
  unfold requestIds
  cases numbered : exchange.outcome.requestId <;> simp [numbered]

/-- Numbers are handed out in increasing order, from the next one on. -/
theorem requestIds_increasing
    (run : Run (Call.Performs toText) client exchanges final) :
    (requestIds exchanges).Pairwise (· < ·) ∧
      ∀ id ∈ requestIds exchanges,
        ∃ first, client.nextId = some first ∧ first ≤ id := by
  induction run with
  | nil => simp [requestIds]
  | @cons client next final exchange rest performed _ induction =>
      have transition := transition_of_performs performed
      rw [requestIds_cons]
      generalize exchange.outcome = outcome at transition
      cases transition with
      | refused exhausted _ same =>
          rw [← same]
          exact induction
      | polled kept _ =>
          rw [← kept]
          exact induction
      | @executed id result numbered advanced _ _ =>
          have later : ∀ other ∈ requestIds rest, id < other := by
            intro other member
            obtain ⟨first, started, bound⟩ := induction.2 other member
            rw [advanced, checkedAdd_eq_some] at started
            simp only [unsigned_toNat_uint64] at started
            rw [UInt64.lt_iff_toNat_lt]
            rw [UInt64.le_iff_toNat_le] at bound
            have one : (1 : UInt64).toNat = 1 := rfl
            omega
          refine ⟨List.pairwise_cons.mpr ⟨later, induction.1⟩, ?_⟩
          intro other member
          refine ⟨id, numbered, ?_⟩
          rcases List.mem_cons.mp member with same | member
          · exact same ▸ UInt64.le_refl other
          · exact UInt64.le_of_lt (later other member)

/-- Given turns enough to hear the peer out, a call returns. -/
theorem perform_returns (toText : Json → String) (client : QmpClient)
    (call : Call) (enough : client.incoming.length < call.turns.length) :
    (call.perform toText client).1.isSome := by
  cases call with
  | execute command arguments start write turns =>
      simp only [Call.perform, Option.isSome_map]
      unfold QmpClient.execute
      split
      · rfl
      · split
        · rfl
        · exact QmpClient.awaitReply_returns toText command _ _ enough
  | nextEvent timeout start turns =>
      simp only [Call.perform, Option.isSome_map]
      unfold QmpClient.nextEvent
      split
      · rfl
      · split
        · rfl
        · exact QmpClient.awaitEvent_returns _ enough

/-- Every reply that a run hands back was read by the call it answers. -/
theorem answers_of_run
    (run : Run (Call.Performs toText) client exchanges final)
    (member : exchange ∈ exchanges) {id : UInt64} {value : Json}
    (returned : exchange.outcome = .executed (.ok id) (.ok value)) :
    ∃ response, .ok response ∈ exchange.reads ∧
      QmpClient.Answers id response value := by
  induction run with
  | nil => cases member
  | cons performed _ induction =>
      rcases List.mem_cons.mp member with rfl | member
      · have transition := transition_of_performs performed
        rw [returned] at transition
        cases transition with
        | executed _ _ _ answered => exact answered value rfl
      · exact induction member

/-- A request that gets no number fails for that reason and does nothing. -/
theorem refused_of_run
    (run : Run (Call.Performs toText) client exchanges final)
    (member : exchange ∈ exchanges) {id : Result UInt64} {result : Result Json}
    (returned : exchange.outcome = .executed id result)
    (unnumbered : exchange.outcome.requestId = none) :
    id = .error idsExhausted ∧ result = .error idsExhausted := by
  induction run with
  | nil => cases member
  | cons performed _ induction =>
      rcases List.mem_cons.mp member with rfl | member
      · have transition := transition_of_performs performed
        rw [returned] at transition unnumbered
        cases transition with
        | refused _ _ _ => exact ⟨rfl, rfl⟩
        | executed _ _ _ _ => cases unnumbered
      · exact induction member

/-- Once the last number has been handed out, every later request is refused. -/
theorem exhausted_after_last
    (run : Run (Call.Performs toText) client exchanges final)
    {before after : List Exchange} (split : exchanges = before ++ after)
    (last : 0xffffffffffffffff ∈ requestIds before)
    (member : exchange ∈ after) {id : Result UInt64} {result : Result Json}
    (returned : exchange.outcome = .executed id result) :
    id = .error idsExhausted ∧ result = .error idsExhausted := by
  have within : exchange ∈ exchanges := by
    rw [split]
    exact List.mem_append_right _ member
  apply refused_of_run run within returned
  cases numbered : exchange.outcome.requestId with
  | none => rfl
  | some later =>
      have increasing := (requestIds_increasing run).1
      simp only [requestIds, split, List.filterMap_append] at increasing
      have ordered := (List.pairwise_append.mp increasing).2.2 _ last later
        (List.mem_filterMap.mpr ⟨exchange, member, numbered⟩)
      rw [UInt64.lt_iff_toNat_lt] at ordered
      have bound := later.toNat_lt
      have largest : (0xffffffffffffffff : UInt64).toNat = 2 ^ 64 - 1 := rfl
      omega

/-- Over any run on one client: request numbers never repeat, and after the last
one the client stays exhausted; a reply is handed back only to the request of
its number, read by that very call; and as long as no call reported an overfull
queue, the events returned so far followed by those still queued are those that
were queued at first followed by those read since, in order. -/
theorem run_correlates_and_delivers
    (run : Run (Call.Performs toText) client exchanges final) :
    (requestIds exchanges).Nodup ∧
    (∀ before after, exchanges = before ++ after →
      0xffffffffffffffff ∈ requestIds before →
      ∀ exchange ∈ after, ∀ id result,
        exchange.outcome = .executed id result →
        id = .error idsExhausted ∧ result = .error idsExhausted) ∧
    (∀ exchange ∈ exchanges, ∀ id value,
      exchange.outcome = .executed (.ok id) (.ok value) →
      ∃ response, .ok response ∈ exchange.reads ∧
        qmpEvent response = none ∧
        (response.get "id").bind Json.asU64 = some id ∧
        value = (response.get "return").getD .null) ∧
    client.incoming = readMessages exchanges ++ final.incoming ∧
    ((∀ exchange ∈ exchanges, ¬ exchange.outcome.overflowed) →
      deliveredEvents exchanges ++ final.events =
        client.events ++ arrivals (readMessages exchanges)) := by
  refine ⟨?_, ?_, ?_, incoming_of_run run, events_of_run run⟩
  · exact (requestIds_increasing run).1.imp fun ordered =>
      UInt64.ne_of_lt ordered
  · intro before after split last exchange member id result returned
    exact exhausted_after_last run split last member returned
  · intro exchange member id value returned
    obtain ⟨response, read, answers⟩ := answers_of_run run member returned
    exact ⟨response, read, answers.not_event, answers.id_eq, answers.value_eq⟩

/-! A run with one request and one poll: an event overtakes the reply. -/

def resetEvent : Json :=
  .object [("event", .string "RESET")]

def capabilitiesReply : Json :=
  .object [("id", .number (.posInt 1)), ("return", .object [])]

def promptTurn : Turn :=
  { now := 0, setReadTimeout := fun _ => .ok () }

def capabilitiesCall : Call :=
  .execute "qmp_capabilities" none 0 (fun _ => .ok ()) [promptTurn, promptTurn]

def overtakenExchanges : List Exchange :=
  [{ call := capabilitiesCall
     reads := [.ok resetEvent, .ok capabilitiesReply]
     outcome := .executed (.ok 1) (.ok (.object [])) },
    { call := .nextEvent 0 0 []
      reads := []
      outcome := .polled (.ok (some ⟨"RESET", none, none⟩)) }]

theorem overtakenExchanges_run (toText : Json → String) :
    Run (Call.Performs toText)
      (.fresh [.ok resetEvent, .ok capabilitiesReply] 5000000000)
      overtakenExchanges ⟨[], some 2, [], 5000000000⟩ :=
  .cons ⟨rfl, rfl⟩ (.cons ⟨rfl, rfl⟩ .nil)

theorem run_correlates_and_delivers_overtaken :
    deliveredEvents overtakenExchanges = [⟨"RESET", none, none⟩] ∧
      deliveredEvents overtakenExchanges ++ [] =
        [] ++ arrivals (readMessages overtakenExchanges) :=
  ⟨rfl, (run_correlates_and_delivers
    (overtakenExchanges_run fun _ => "")).2.2.2.2 (by
      simp [overtakenExchanges, Outcome.overflowed])⟩

/-- A reply that carries its request's number and no `return` is handed back as
null, though no message with a `return` was ever sent. -/
theorem reply_without_return_is_null :
    let client := QmpClient.fresh [.ok (.object [("id", .number (.posInt 1))])]
      5000000000
    ((client.execute (fun _ => "") "qmp_capabilities" none 0
      (fun _ => .ok ()) [promptTurn]).1 = some (.ok .null)) ∧
    ∀ response, .ok response ∈ client.incoming →
      response.get "return" = none := by
  refine ⟨rfl, ?_⟩
  intro response member
  cases List.mem_singleton.mp member
  rfl

end LibVmi.Qemu
