import RemoteSqlAgent.OutboxQueue
import RemoteSqlAgent.Session

/-! How job history gets from msdb to the control plane. A poller reads what is
above a bookmark and hands it to the stream, or to the outbox if the stream does
not take it; the outbox is drained into the next stream. -/
namespace RemoteSqlAgent
open Js

/-- A row of `sysjobhistory`, as it is read. -/
structure HistoryRecord where
  sqlInstanceId : Int
  jobUuid : JsString
  stepId : Int
  stepName : JsString
  runStatus : Int
  runDatetime : Int
  runDurationSeconds : Int
  message : JsString
  retriesAttempted : Int
  server : JsString
  sqlSeverity : Int
  sqlMessageId : Int

/-- A row of history on the wire. -/
structure HistoryRow where
  instanceId : Int
  jobUuid : JsString
  stepId : Int
  stepName : JsString
  runStatus : Int
  runDatetime : Option Timestamp
  runDurationSeconds : Int
  message : JsString
  retriesAttempted : Int
  server : JsString
  sqlSeverity : Int
  sqlMessageId : Int

def HistoryRecord.toRow (record : HistoryRecord) : HistoryRow where
  instanceId := record.sqlInstanceId
  jobUuid := record.jobUuid
  stepId := record.stepId
  stepName := record.stepName
  runStatus := record.runStatus
  runDatetime := some (toTimestamp record.runDatetime)
  runDurationSeconds := record.runDurationSeconds
  message := record.message
  retriesAttempted := record.retriesAttempted
  server := record.server
  sqlSeverity := record.sqlSeverity
  sqlMessageId := record.sqlMessageId

/-- A message of the worker. Only history is looked at here; the other two that
are queued compete with it for the room in the outbox. -/
inductive WorkerMessage where
  | history (instanceName : JsString) (rows : List HistoryRow)
  | activity (instanceName : JsString)
  | agentLog (instanceName : JsString)
  | other

/-- How a message is queued that is not sent. The rest is made anew after a
reconnect. -/
def WorkerMessage.queuedAs : WorkerMessage → Option (OutboxKind × JsString)
  | history instanceName _ => some (.history, instanceName)
  | activity instanceName => some (.activity, instanceName)
  | agentLog instanceName => some (.agentLog, instanceName)
  | other => none

/-- What tells one row of history from all others: its instance, and its id
there. -/
abbrev HistoryKey := JsString × Int

/-- The rows a message brings to the control plane. A row needs a time. -/
def WorkerMessage.keys : WorkerMessage → List HistoryKey
  | history instanceName rows =>
    (rows.filter fun row => (fromTimestamp row.runDatetime).isSome).map fun row => (instanceName, row.instanceId)
  | _ => []

/-- `JSON.stringify` and `JSON.parse` on messages. What is parsed need not have
been written by this version. -/
structure MessageCodec where
  stringify : WorkerMessage → JsString
  parse : JsString → Option WorkerMessage
  parse_stringify : ∀ message, parse (stringify message) = some message

/-- A poll that waits for its rows. -/
structure HistoryPoll where
  instanceName : JsString
  batchSize : Nat
  highWaterMark : Int

/-- The worker, the streams and the control plane, as far as history goes. -/
structure HistorySystem where
  session : Session
  outbox : OutboxQueue.History
  /-- The bookmarks of `sync_state`. -/
  highWaterMark : JsString → Int
  polls : List HistoryPoll
  /-- What each stream accepted and the control plane has not dealt with. -/
  inFlight : Nat → List WorkerMessage
  /-- What the control plane has stored. -/
  stored : List HistoryKey
  /-- Every row the worker ever read. It does not keep that. -/
  read : List HistoryKey

namespace HistorySystem

def start (maxRows : Nat) : HistorySystem where
  session := .new
  outbox := .start maxRows
  highWaterMark _ := 0
  polls := []
  inFlight _ := []
  stored := []
  read := []

/-! ## The worker -/

/-- `send`, and whether the message was accepted. Backpressure does not refuse
it; a write that throws does. -/
def send (system : HistorySystem) (message : WorkerMessage) (throws : Bool) : Bool × HistorySystem :=
  match system.session.stream with
  | none => (false, system)
  | some stream =>
    if !system.session.connected || throws then (false, system)
    else (true, { system with
      inFlight := Function.update system.inFlight stream (system.inFlight stream ++ [message]) })

section
variable (codec : MessageCodec)

/-- Live stream if connected, outbox otherwise. -/
def emit (system : HistorySystem) (message : WorkerMessage) (throws : Bool) (now : Int) : HistorySystem :=
  match system.send message throws with
  | (true, system) => system
  | (false, system) =>
    match message.queuedAs with
    | none => system
    | some (kind, instanceName) => { system with
        outbox := system.outbox.perform (.enqueue kind instanceName (codec.stringify message) now) }

/-- The bookmark never goes back. -/
def setHistoryHighWaterMark (system : HistorySystem) (instanceName : JsString) (value : Int) : HistorySystem :=
  { system with
    highWaterMark :=
      Function.update system.highWaterMark instanceName (max (system.highWaterMark instanceName) value) }

/-- On the first contact with an instance only the newest rows are wanted. -/
def connectInstance (system : HistorySystem) (instanceName : JsString) (maxHistoryId : Int) : HistorySystem :=
  if system.highWaterMark instanceName = 0 then
    system.setHistoryHighWaterMark instanceName (max 0 (maxHistoryId - 100))
  else system

/-- A poll reads its bookmark and asks for the rows above it. -/
def pollHistory (system : HistorySystem) (instanceName : JsString) (batchSize : Nat) : HistorySystem :=
  { system with polls := system.polls ++ [{
      instanceName := instanceName
      batchSize := batchSize
      highWaterMark := system.highWaterMark instanceName }] }

/-- The rows are there. They are handed on, the bookmark is moved, and a full
batch is followed by the next. -/
def pollAnswered (system : HistorySystem) (poll : HistoryPoll) (records : List HistoryRecord) (throws : Bool)
    (now : Int) : HistorySystem :=
  match records.map (·.sqlInstanceId) with
  | [] => system
  | first :: rest =>
    let system := { system with
      read := system.read ++ records.map fun record : HistoryRecord => (poll.instanceName, record.sqlInstanceId) }
    let system := system.emit codec (.history poll.instanceName (records.map HistoryRecord.toRow)) throws now
    let system := system.setHistoryHighWaterMark poll.instanceName (rest.foldl max first)
    if records.length < poll.batchSize then system else system.pollHistory poll.instanceName poll.batchSize

/-- Send a batch of the outbox: the ids to acknowledge, and whether the stream
stopped taking messages. A row that is no message can never be sent. -/
def sendBatch (throws : OutboxRow → Bool) (system : HistorySystem) :
    List OutboxRow → List Int × Bool × HistorySystem
  | [] => ([], false, system)
  | row :: rest =>
    match codec.parse row.payload with
    | none =>
      let (sent, stoppedEarly, system) := sendBatch throws system rest
      (row.id :: sent, stoppedEarly, system)
    | some message =>
      match system.send message (throws row) with
      | (false, system) => ([], true, system)
      | (true, system) =>
        let (sent, stoppedEarly, system) := sendBatch throws system rest
        (row.id :: sent, stoppedEarly, system)

def OUTBOX_DRAIN_BATCH : Nat := 50

def drainRounds (throws : OutboxRow → Bool) : Nat → HistorySystem → HistorySystem
  | 0, system => system
  | rounds + 1, system =>
    match system.outbox.queue.peek OUTBOX_DRAIN_BATCH with
    | [] => system
    | batch =>
      let (sent, stoppedEarly, system) := system.sendBatch codec throws batch
      let system := { system with outbox := system.outbox.perform (.acknowledge (sent.map some)) }
      if stoppedEarly then system else drainRounds throws rounds system

/-- Ship what is queued while the session can take it. Every round that does not
end it removes a row. -/
def drainOutbox (throws : OutboxRow → Bool) (system : HistorySystem) : HistorySystem :=
  if !system.session.connected then system
  else drainRounds codec throws (system.outbox.queue.table.rows.length + 1) system

end

/-! ## The control plane -/

/-- Every row with a time is there afterwards, also if it was there before. -/
def ingestHistory (stored : List HistoryKey) (instanceName : JsString) (rows : List HistoryRow) :
    List HistoryKey :=
  let values := rows.filter fun row => (fromTimestamp row.runDatetime).isSome
  stored ++ values.map fun row => (instanceName, row.instanceId)

/-- The hub deals with a message. History of an instance that the session did
not declare is ignored, and an ingestion that fails is logged. -/
def handleMessage (stored : List HistoryKey) (declared : List JsString) (fails : Bool) :
    WorkerMessage → List HistoryKey
  | .history instanceName rows =>
    if instanceName ∉ declared ∨ fails then stored else ingestHistory stored instanceName rows
  | _ => stored

/-! ## Runs -/

/-- What can happen next. Whether it is due is not looked at: the account of the
rows does not depend on it. -/
inductive Act where
  | session (event : Session.Event)
  | received (stream : Nat) (message : Option ServerMessage)
  | connected (instanceName : JsString) (maxHistoryId : Int)
  | poll (instanceName : JsString) (batchSize : Nat)
  | answered (index : Nat) (records : List HistoryRecord) (throws : Bool) (now : Int)
  | failed (index : Nat)
  | activity (instanceName : JsString) (throws : Bool) (now : Int)
  | agentLog (instanceName : JsString) (throws : Bool) (now : Int)
  | drain (throws : OutboxRow → Bool)
  /-- The control plane deals with the next message of a stream. -/
  | taken (stream : Nat) (declared : List JsString) (fails : Bool)
  /-- A stream breaks, and what was in flight on it is gone. -/
  | lost (stream : Nat)
  /-- The process starts again. Streams go on being numbered. -/
  | restart (maxRows : Nat)

section
variable (codec : MessageCodec) (crypto : Crypto) (config : WorkerConfig)

def act (system : HistorySystem) : Act → HistorySystem
  | .session event => { system with session := system.session.on event }
  | .received stream message =>
    { system with session := (system.session.onData crypto config stream message).1 }
  | .connected instanceName maxHistoryId => system.connectInstance instanceName maxHistoryId
  | .poll instanceName batchSize => system.pollHistory instanceName batchSize
  | .answered index records throws now =>
    match system.polls[index]? with
    | none => system
    | some poll =>
      { system with polls := system.polls.eraseIdx index }.pollAnswered codec poll records throws now
  | .failed index => { system with polls := system.polls.eraseIdx index }
  | .activity instanceName throws now => system.emit codec (.activity instanceName) throws now
  | .agentLog instanceName throws now => system.emit codec (.agentLog instanceName) throws now
  | .drain throws => system.drainOutbox codec throws
  | .taken stream declared fails =>
    match system.inFlight stream with
    | [] => system
    | message :: rest => { system with
        inFlight := Function.update system.inFlight stream rest
        stored := handleMessage system.stored declared fails message }
  | .lost stream => { system with inFlight := Function.update system.inFlight stream [] }
  | .restart maxRows => { system with
      session := { Session.new with streams := system.session.streams }
      outbox := system.outbox.perform (.reopen maxRows)
      polls := [] }

def run (maxRows : Nat) (acts : List Act) : HistorySystem :=
  acts.foldl (act codec crypto config) (start maxRows)

end

end HistorySystem

end RemoteSqlAgent
