import RemoteSqlAgent.Interleaving
import RemoteSqlAgent.JsArray
import RemoteSqlAgent.JsDigits
import RemoteSqlAgent.JsJson
import RemoteSqlAgent.Sequencing

/-! The audit trail and its export. An event and its place in the export queue are written in one
transaction. A drain hands what is due to the batch processor and takes it off the queue, and the
processor exports later, or drops what it holds. -/
namespace RemoteSqlAgent
open Js CallProgram

/-! ## The trail -/

inductive AuditActorType where
  | user
  | worker
  | system
  deriving DecidableEq

structure AuditExport.AuditEntry where
  actorType : AuditActorType
  actor : JsString
  action : JsString
  target : Option JsString
  detail : Option JsonValue
  remoteAddress : Option JsString

/-- A row of the audit log. -/
structure AuditRow extends AuditExport.AuditEntry where
  id : Nat
  occurred : Int

/-- A row of the export queue. -/
structure AuditQueueRow where
  id : Nat
  auditLogId : Nat
  attempts : Nat
  lastError : Option JsString
  nextAttemptAt : Int
  createdAt : Int
  deriving DecidableEq

structure AuditConfig where
  otlpEnabled : Bool
  otlpEndpoint : Option JsString
  exportBatchSize : Nat
  maxAttempts : Nat

def AuditConfig.enabled (config : AuditConfig) : Bool :=
  config.otlpEnabled && config.otlpEndpoint.any fun endpoint => endpoint ≠ []

/-! ## Records -/

/-- Actions that represent a security-relevant failure rather than normal use. -/
def WARNING_ACTIONS : List JsString :=
  [js "auth.login.failed", js "worker.auth.failed", js "command.rejected", js "command.result.failed"]

inductive AuditSeverity where
  | info
  | warn
  deriving DecidableEq

/-- What is handed to the batch processor for an event, its attributes by their names. -/
structure LogRecord where
  timestamp : Int
  severity : AuditSeverity
  body : JsString
  eventName : JsString
  auditId : Nat
  actor : JsString
  actorType : AuditActorType
  target : JsString
  clientAddress : JsString
  detail : JsString
  deriving DecidableEq

/-- `Boolean` of JSON. -/
def truthy : JsonValue → Bool
  | .null => false
  | .bool value => value
  | .number value => value ≠ 0
  | .string value => value ≠ []
  | .array _ | .object _ => true

def AuditRow.record (row : AuditRow) : LogRecord where
  timestamp := row.occurred
  severity := if row.action ∈ WARNING_ACTIONS then .warn else .info
  body := row.actor ++ js " " ++ row.action ++
    ((row.target.filter fun target => target ≠ []).map fun target => js " " ++ target).getD []
  eventName := row.action
  auditId := row.id
  actor := row.actor
  actorType := row.actorType
  target := row.target.getD []
  clientAddress := row.remoteAddress.getD []
  detail := ((row.detail.filter truthy).map stringify).getD []

/-! ## Drains -/

structure AuditFailure where
  queueId : Nat
  attempts : Nat
  error : JsString
  deriving DecidableEq

def backoffMs (attempts : Nat) : Nat := min (2 ^ attempts * 1000) (5 * 60 * 1000)

/-- What the queue keeps of a failure. -/
def AuditFailure.note (failure : AuditFailure) (clock : Int) (row : AuditQueueRow) : AuditQueueRow :=
  if row.id = failure.queueId then
    { row with
      attempts := failure.attempts
      lastError := some (slice failure.error 0 1000)
      nextAttemptAt := clock + backoffMs failure.attempts }
  else row

@[simp] theorem AuditFailure.note_id (failure : AuditFailure) (clock : Int) (row : AuditQueueRow) :
    (failure.note clock row).id = row.id := by
  unfold AuditFailure.note
  split
  · rfl
  · rfl

@[simp] theorem AuditFailure.note_auditLogId (failure : AuditFailure) (clock : Int) (row : AuditQueueRow) :
    (failure.note clock row).auditLogId = row.auditLogId := by
  unfold AuditFailure.note
  split
  · rfl
  · rfl

/-- The statements of a drain, once its records are emitted. -/
inductive AuditStatement where
  | deleteDelivered (queueIds : List Nat)
  /-- Give up on the export of a row. -/
  | deleteFailed (failure : AuditFailure)
  | updateFailed (failure : AuditFailure)
  deriving DecidableEq

/-- The database, the exporter with its batch processor, and the collector. -/
structure AuditExport where
  log : List AuditRow
  queue : List AuditQueueRow
  /-- The exporter has a logger. -/
  otel : Bool
  /-- What the drain in progress has still to do. Another one starts when there is nothing. -/
  statements : List AuditStatement
  buffer : List LogRecord
  acknowledged : List LogRecord
  /-- The events whose emission threw, each time. -/
  failures : List Nat
  /-- The events that were given up. -/
  dropped : List Nat
  clock : Int

namespace AuditExport

def initial (clock : Int) : AuditExport := ⟨[], [], false, [], [], [], [], [], clock⟩

/-- Both inserts of `writeAudit`. -/
def writeAudit (state : AuditExport) (entry : AuditEntry) : AuditExport :=
  let id := state.log.length
  { state with
    log := state.log ++ [{ entry with id := id, occurred := state.clock }]
    queue := state.queue ++ [⟨id, id, 0, none, state.clock, state.clock⟩] }

/-- What is due, with its events, the first that was queued first. -/
def pending (state : AuditExport) (limit : Nat) : List (AuditQueueRow × AuditRow) :=
  let due := state.queue.filter fun row => row.nextAttemptAt ≤ state.clock
  let joined := due.flatMap fun row => (state.log.filter (·.id = row.auditLogId)).map fun event => (row, event)
  (sortBy (fun a b : AuditQueueRow × AuditRow => a.1.createdAt - b.1.createdAt) joined).take limit

section Drain
variable (config : AuditConfig) (emits : LogRecord → Except JsString Unit)

/-- The row is delivered, as far as the exporter knows. -/
def Emitted (row : AuditQueueRow × AuditRow) : Bool := (emits row.2.record).toBool

def failureOf (row : AuditQueueRow × AuditRow) : Option AuditFailure :=
  match emits row.2.record with
  | .ok _ => none
  | .error error => some ⟨row.1.id, row.1.attempts + 1, error⟩

/-- The statement for a row whose emission threw. -/
def settle (failure : AuditFailure) : AuditStatement :=
  if failure.attempts ≥ config.maxAttempts then .deleteFailed failure else .updateFailed failure

/-- A drain up to its first statement that writes. -/
def drain (state : AuditExport) : AuditExport :=
  if ¬ config.enabled ∨ ¬ state.otel ∨ state.statements ≠ [] then state
  else
    let pending := state.pending config.exportBatchSize
    let delivered := pending.filter (Emitted emits)
    let failed := pending.filterMap (failureOf emits)
    { state with
      statements :=
        (if delivered.length > 0 then [.deleteDelivered (delivered.map (·.1.id))] else []) ++ failed.map (settle config)
      buffer := state.buffer ++ delivered.map (·.2.record)
      failures := state.failures ++ (pending.filter fun row => ¬ Emitted emits row).map (·.1.auditLogId) }

end Drain

/-- A statement that is made. -/
def perform (state : AuditExport) : AuditStatement → AuditExport
  | .deleteDelivered queueIds => { state with queue := state.queue.filter fun row => row.id ∉ queueIds }
  | .deleteFailed failure =>
    { state with
      queue := state.queue.filter fun row => row.id ≠ failure.queueId
      dropped := state.dropped ++ (state.queue.filter fun row => row.id = failure.queueId).map (·.auditLogId) }
  | .updateFailed failure => { state with queue := state.queue.map (failure.note state.clock) }

/-- The process ends, and what it buffered is gone. -/
def crash (state : AuditExport) : AuditExport := { state with otel := false, statements := [], buffer := [] }

end AuditExport

/-! ## Steps -/

inductive AuditStep where
  | start
  /-- An audit row and its place in the queue are committed. -/
  | writeAudit (entry : AuditExport.AuditEntry)
  /-- A drain selects and emits. -/
  | drain (emits : LogRecord → Except JsString Unit)
  /-- The drain in progress makes its next statement. What a statement throws ends the drain. -/
  | statement (fault : Option Fault)
  /-- The collector acknowledges the first records of the buffer. -/
  | exported (count : Nat)
  /-- An export fails, and the first records of the buffer are dropped. -/
  | exportFailed (count : Nat)
  | crash
  | wait (milliseconds : Nat)

namespace AuditExport

def next (config : AuditConfig) (state : AuditExport) : AuditStep → AuditExport
  | .start => { state with otel := state.otel || config.enabled }
  | .writeAudit entry => state.writeAudit entry
  | .drain emits => state.drain config emits
  | .statement fault =>
    match state.statements with
    | [] => state
    | first :: rest =>
      match fault with
      | none => { state.perform first with statements := rest }
      | some .refused => { state with statements := [] }
      | some .unheard => { state.perform first with statements := [] }
      | some .killed => state.crash
  | .exported count =>
    { state with acknowledged := state.acknowledged ++ state.buffer.take count, buffer := state.buffer.drop count }
  | .exportFailed count => { state with buffer := state.buffer.drop count }
  | .crash => state.crash
  | .wait milliseconds => { state with clock := state.clock + milliseconds }

def run (config : AuditConfig) (state : AuditExport) (steps : List AuditStep) : AuditExport :=
  steps.foldl (next config) state

theorem run_concat (config : AuditConfig) (state : AuditExport) (steps : List AuditStep) (step : AuditStep) :
    state.run config (steps ++ [step]) = (state.run config steps).next config step := by
  rw [run, List.foldl_append]
  rfl

end AuditExport

end RemoteSqlAgent
