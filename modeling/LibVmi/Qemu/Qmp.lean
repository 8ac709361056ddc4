import LibVmi.Data.Json
import LibVmi.Driver

namespace LibVmi.Qemu

open Data

/-! The monitor client. Its peer sends whole JSON messages; the client
correlates replies with requests by their numbers and keeps the events that
arrive while it waits for a reply. Durations and instants are counts of
nanoseconds. -/

def eventQueueCapacity : Nat := 1024

def maxSocketWait : Nat := 24 * 60 * 60 * 10 ^ 9

def boundedSocketTimeout (timeout : Nat) : Nat :=
  min timeout maxSocketWait

/-- An instant holds its seconds in a signed machine word. -/
def instantLimit : Nat := 2 ^ 63 * 10 ^ 9

def deadlineAfter (start timeout : Nat) : Option Nat :=
  if start + timeout < instantLimit then some (start + timeout) else none

/-- How long one read may wait, or nothing once the deadline has passed. -/
def remaining (deadline : Option Nat) (now : Nat) : Option Nat :=
  match deadline with
  | some deadline =>
      if deadline ≤ now then none
      else some (boundedSocketTimeout (deadline - now))
  | none => some maxSocketWait

/-! Messages. -/

def narrow (value : UInt64) : Option UInt32 :=
  if value.toNat < 2 ^ 32 then some (UInt32.ofNat value.toNat) else none

/-- An event message is one whose `event` is text, whatever else it carries. -/
def qmpEvent (value : Json) : Option VmiEvent :=
  ((value.get "event").bind Json.asStr).map fun kind =>
    let data := value.get "data"
    { kind
      vcpu :=
        ((data.bind fun data =>
          (data.get "cpu-index").or (data.get "vcpu")).bind
            Json.asU64).bind narrow
      address :=
        ((data.bind fun data =>
          (data.get "address").or (data.get "addr")).bind
            Json.asU64).map Gpa.mk }

def takeQmpReturn (response : Json) : Json :=
  (response.get "return").getD .null

def request (command : String) (arguments : Option Json) (id : UInt64) : Json :=
  let fields := [("execute", .string command), ("id", .number (.posInt id))]
  match arguments with
  | some arguments => .object (("arguments", arguments) :: fields)
  | none => .object fields

/-! Request numbers and the event queue. -/

def idsExhausted : VmiError :=
  .backend "QMP request ID space exhausted"

def takeRequestId (nextId : Option UInt64) : Result UInt64 × Option UInt64 :=
  match nextId with
  | some id => (.ok id, checkedAdd id 1)
  | none => (.error idsExhausted, none)

def queueOverflow : VmiError :=
  .backend ("QMP event queue capacity " ++ toString eventQueueCapacity ++
    " exceeded")

def enqueueEvent (events : List VmiEvent) (event : VmiEvent) :
    Result (List VmiEvent) :=
  if events.length = eventQueueCapacity then .error queueOverflow
  else .ok (events ++ [event])

/-! The client reads from a list of what each read will report, messages and
failures alike. Past its end the peer has closed the connection. -/

structure QmpClient where
  incoming : List (Result Json)
  nextId : Option UInt64
  events : List VmiEvent
  timeout : Nat

/-- What the host gives one turn of a waiting loop: the time, and the report of
`set_read_timeout` on the wait that the turn asks for. -/
structure Turn where
  now : Nat
  setReadTimeout : Nat → Result Unit

inductive Received where
  | late
  | refused (error : VmiError)
  | read (result : Result Json)

namespace QmpClient

def fresh (incoming : List (Result Json)) (timeout : Nat) : QmpClient :=
  { incoming, nextId := some 1, events := [], timeout }

def connectionClosed : VmiError :=
  .backend "QMP connection closed"

def readJson (client : QmpClient) : Result Json × QmpClient :=
  match client.incoming with
  | [] => (.error connectionClosed, client)
  | result :: rest => (result, { client with incoming := rest })

/-- The head of both waiting loops, up to the report of the read. -/
def receive (client : QmpClient) (deadline : Option Nat) (turn : Turn) :
    Received × QmpClient :=
  match remaining deadline turn.now with
  | none => (.late, client)
  | some wait =>
      match turn.setReadTimeout wait with
      | .error error => (.refused error, client)
      | .ok () => (.read client.readJson.1, client.readJson.2)

/-- The loop of `execute`. It has no result when it is still waiting after the
given turns. -/
def awaitReply (toText : Json → String) (command : String) (id : UInt64)
    (deadline : Option Nat) :
    List Turn → QmpClient → Option (Result Json) × QmpClient
  | [], client => (none, client)
  | turn :: turns, client =>
      match client.receive deadline turn with
      | (.late, client) =>
          (some (.error (.timeout "QMP command")), client)
      | (.refused error, client) => (some (.error error), client)
      | (.read (.error error), client) =>
          if error = .timeout "QMP read" then
            (some (.error (.timeout "QMP command")), client)
          else
            (some (.error error), client)
      | (.read (.ok response), client) =>
          match qmpEvent response with
          | some event =>
              match enqueueEvent client.events event with
              | .error error => (some (.error error), client)
              | .ok events =>
                  awaitReply toText command id deadline turns
                    { client with events }
          | none =>
              if (response.get "id").bind Json.asU64 ≠ some id then
                awaitReply toText command id deadline turns client
              else
                match response.get "error" with
                | some error =>
                    (some (.error (.backend
                      ("QMP " ++ command ++ " failed: " ++ toText error))),
                      client)
                | none => (some (.ok (takeQmpReturn response)), client)

/-- `write` is the report of writing and flushing the request. -/
def execute (client : QmpClient) (toText : Json → String) (command : String)
    (arguments : Option Json) (start : Nat) (write : Json → Result Unit)
    (turns : List Turn) : Option (Result Json) × QmpClient :=
  let deadline := deadlineAfter start client.timeout
  match takeRequestId client.nextId with
  | (.error error, nextId) => (some (.error error), { client with nextId })
  | (.ok id, nextId) =>
      match write (request command arguments id) with
      | .error error => (some (.error error), { client with nextId })
      | .ok () =>
          awaitReply toText command id deadline turns { client with nextId }

/-- The loop of `next_event`, in which a reply is passed over and, without a
deadline, a read that times out is repeated. -/
def awaitEvent (deadline : Option Nat) :
    List Turn → QmpClient → Option (Result (Option VmiEvent)) × QmpClient
  | [], client => (none, client)
  | turn :: turns, client =>
      match client.receive deadline turn with
      | (.late, client) => (some (.ok none), client)
      | (.refused error, client) => (some (.error error), client)
      | (.read (.error error), client) =>
          if error = .timeout "QMP read" then
            if deadline.isSome then (some (.ok none), client)
            else awaitEvent deadline turns client
          else
            (some (.error error), client)
      | (.read (.ok value), client) =>
          match qmpEvent value with
          | some event => (some (.ok (some event)), client)
          | none => awaitEvent deadline turns client

def nextEvent (client : QmpClient) (timeout start : Nat) (turns : List Turn) :
    Option (Result (Option VmiEvent)) × QmpClient :=
  match client.events with
  | event :: events => (some (.ok (some event)), { client with events })
  | [] =>
      if timeout = 0 then (some (.ok none), client)
      else awaitEvent (deadlineAfter start timeout) turns client

/-- The handshake: the greeting, then the first request. -/
def initializeClient (toText : Json → String) (stream : List (Result Json))
    (timeout start : Nat) (write : Json → Result Unit) (turns : List Turn) :
    Option (Result QmpClient) :=
  match (fresh stream timeout).readJson with
  | (.error error, _) => some (.error error)
  | (.ok greeting, client) =>
      if (greeting.get "QMP").isNone then
        some (.error (.backend "QMP greeting was not received"))
      else
        match client.execute toText "qmp_capabilities" none start write
            turns with
        | (none, _) => none
        | (some (.error error), _) => some (.error error)
        | (some (.ok _), client) => some (.ok client)

end QmpClient

end LibVmi.Qemu
