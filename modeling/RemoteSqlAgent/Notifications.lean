import Mathlib.Data.List.Infix
import RemoteSqlAgent.HistoryIngest
import RemoteSqlAgent.JsCase
import RemoteSqlAgent.JsMap

/-! Notifications. An event is recorded once for each occurrence; recording one
queues a delivery for each channel that a rule names, unless the throttle holds it
back; deliveries are sent later, and again if sending fails. -/
namespace RemoteSqlAgent
open Js CallProgram

/-! ## Rows -/

inductive NotificationEventKind where
  | job_failed
  | job_succeeded
  | job_recovered
  | job_long_running
  | worker_offline
  | command_failed
  deriving DecidableEq

def NotificationEventKind.text : NotificationEventKind → JsString
  | .job_failed => js "job.failed"
  | .job_succeeded => js "job.succeeded"
  | .job_recovered => js "job.recovered"
  | .job_long_running => js "job.long_running"
  | .worker_offline => js "worker.offline"
  | .command_failed => js "command.failed"

structure NotificationRule where
  id : JsString
  enabled : Bool
  events : List NotificationEventKind
  /-- None of them means every instance. -/
  instanceIds : List JsString
  jobNameContains : Option JsString
  channelIds : List JsString
  throttleMinutes : Nat

structure NotificationChannel where
  id : JsString
  enabled : Bool
  lastDeliveredAt : Option Int
  lastError : Option JsString
  lastErrorAt : Option Int

structure RecordEventInput where
  kind : NotificationEventKind
  /-- The identity of the occurrence. -/
  dedupeKey : JsString
  instanceId : Option JsString
  workerId : Option JsString
  jobUuid : Option JsString
  payload : List (JsString × JsonValue)
  occurredAt : Int

structure NotificationEvent where
  id : Nat
  input : RecordEventInput

def NotificationEvent.dedupeKey (event : NotificationEvent) : JsString := event.input.dedupeKey

inductive NotificationDeliveryState where
  | pending
  | sent
  | failed
  | suppressed
  deriving DecidableEq

structure NotificationDelivery where
  eventId : Nat
  ruleId : JsString
  channelId : JsString
  throttleKey : JsString
  state : NotificationDeliveryState
  attempts : Nat
  lastError : Option JsString
  nextAttemptAt : Int
  sentAt : Option Int
  deriving DecidableEq

/-- The unique index: one delivery for each event and channel. -/
def NotificationDelivery.key (delivery : NotificationDelivery) : Nat × JsString :=
  (delivery.eventId, delivery.channelId)

/-! ## Statements -/

/-- What can be thrown. Only an error of sending says whether to try again. -/
inductive Thrown where
  | sendError (message : JsString) (retryable : Bool)
  | error (message : JsString)

def Thrown.message : Thrown → JsString
  | .sendError message _ => message
  | .error message => message

def Thrown.retryable : Thrown → Bool
  | .sendError _ retryable => retryable
  | .error _ => true

structure JobContext where
  jobUuid : JsString
  jobName : JsString
  instanceName : JsString
  hostName : JsString

/-- A delivery that is due, with its channel and its event. -/
structure Due where
  delivery : NotificationDelivery
  event : NotificationEvent
  channel : NotificationChannel

/-- The clock is read as a call is made. -/
inductive NotificationCall where
  /-- `ON CONFLICT (dedupe_key) DO NOTHING RETURNING id`. -/
  | insertEvent (input : RecordEventInput)
  /-- The rules that are enabled. -/
  | selectRules
  /-- Something was sent on the channel for the throttle key in these minutes. -/
  | selectSent (channelId throttleKey : JsString) (minutes : Nat)
  /-- `ON CONFLICT (event_id, channel_id) DO NOTHING`. -/
  | insertDelivery (eventId : Nat) (ruleId channelId throttleKey : JsString) (state : NotificationDeliveryState)
      (lastError : Option JsString)
  | selectJobs (instanceId : JsString) (jobUuids : List JsString)
  /-- The statuses of the outcomes of a job up to one of them, the latest first. -/
  | selectOutcomes (job : JobKey) (sqlInstanceId : Int) (limit : Nat)
  /-- The step of a job that failed last, shortly before an outcome. -/
  | selectFailedStep (job : JobKey) (sqlInstanceId : Int)
  | selectDue (limit : Nat)
  | send (channel : NotificationChannel) (event : RecordEventInput)
  | markSent (delivery : Nat × JsString) (attempts : Nat)
  | channelDelivered (channelId : JsString)
  | markFailed (delivery : Nat × JsString) (state : NotificationDeliveryState) (attempts : Nat) (lastError : JsString)
      (delay : Nat)
  | channelFailed (channelId lastError : JsString)

def NotificationAnswer : NotificationCall → Type
  | .insertEvent _ => Except Thrown (Option Nat)
  | .selectRules => Except Thrown (List NotificationRule)
  | .selectSent .. => Except Thrown Bool
  | .insertDelivery .. => Except Thrown Unit
  | .selectJobs .. => Except Thrown (List JobContext)
  | .selectOutcomes .. => Except Thrown (List Int)
  | .selectFailedStep .. => Except Thrown (Option (Option JsString))
  | .selectDue _ => Except Thrown (List Due)
  | .send .. => Except Thrown Unit
  | .markSent .. => Except Thrown Unit
  | .channelDelivered _ => Except Thrown Unit
  | .markFailed .. => Except Thrown Unit
  | .channelFailed .. => Except Thrown Unit

abbrev NotificationProgram (α : Type) := CallProgram NotificationCall NotificationAnswer Thrown α

/-- The answer of a call, or what it throws. -/
def awaited {α : Type} : Except Thrown α → NotificationProgram α
  | .error thrown => .throw thrown
  | .ok value => .done value

/-! ## Recording -/

/-- The rule and the window a channel gets for an event. -/
structure Target where
  ruleId : JsString
  throttleMinutes : Nat

/-- `"kind:instance:job"`. -/
def RecordEventInput.throttleKey (input : RecordEventInput) : JsString :=
  input.kind.text ++ js ":" ++ (input.instanceId.or input.workerId).getD (js "estate") ++ js ":" ++
    input.jobUuid.getD []

/-- The name of the job, if the payload has one that is a text. -/
def RecordEventInput.jobName (input : RecordEventInput) : JsString :=
  match property (js "jobName") input.payload with
  | some (.string name) => name
  | _ => []

/-- `text.includes(part)`. -/
def includes (text part : JsString) : Bool := part <:+: text

section Matching
variable (table : CaseTable)

def NotificationRule.Matches (rule : NotificationRule) (input : RecordEventInput) : Prop :=
  input.kind ∈ rule.events ∧ (rule.instanceIds ≠ [] → ∃ instanceId ∈ input.instanceId, instanceId ≠ [] ∧
    instanceId ∈ rule.instanceIds) ∧
  ∀ part ∈ rule.jobNameContains, part ≠ [] → includes (table.toLowerCase input.jobName) (table.toLowerCase part)

instance (rule : NotificationRule) (input : RecordEventInput) : Decidable (rule.Matches table input) :=
  inferInstanceAs (Decidable (_ ∧ (_ → ∃ instanceId ∈ input.instanceId, _) ∧ ∀ part ∈ rule.jobNameContains, _))

/-- The shortest window wins. -/
def addTarget (rule : NotificationRule) (targets : JsMap Target) (channelId : JsString) : JsMap Target :=
  match targets.get channelId with
  | none => targets.set channelId ⟨rule.id, rule.throttleMinutes⟩
  | some existing =>
    if rule.throttleMinutes < existing.throttleMinutes then targets.set channelId ⟨rule.id, rule.throttleMinutes⟩
    else targets

/-- The channels that rules name for an event. -/
def matchRules (rules : List NotificationRule) (input : RecordEventInput) : JsMap Target :=
  rules.foldl (fun targets rule =>
    if rule.Matches table input then rule.channelIds.foldl (addTarget rule) targets else targets) []

end Matching

def throttled (throttleMinutes : Nat) : JsString :=
  js "Throttled: an alert for this was sent within " ++ decimal throttleMinutes ++ js " minutes."

/-- Queue the delivery of an event on one channel. A suppressed one is written too. -/
def queueDelivery (eventId : Nat) (throttleKey channelId : JsString) (target : Target) : NotificationProgram PUnit := do
  let suppressed ←
    if target.throttleMinutes > 0 then
      .call (.selectSent channelId throttleKey target.throttleMinutes) fun sent : Except Thrown Bool => awaited sent
    else pure false
  .call (.insertDelivery eventId target.ruleId channelId throttleKey (if suppressed then .suppressed else .pending)
    (if suppressed then some (throttled target.throttleMinutes) else none))
    fun inserted : Except Thrown Unit => awaited inserted

section Recording
variable (table : CaseTable)

/-- Match rules, apply throttling, and queue one delivery for each channel. -/
def fanOut (eventId : Nat) (input : RecordEventInput) : NotificationProgram PUnit :=
  .call .selectRules fun selected : Except Thrown (List NotificationRule) => do
    let rules ← awaited selected
    (matchRules table rules input).forM fun target => queueDelivery eventId input.throttleKey target.1 target.2

/-- Record an event and queue what it should notify. Whether the occurrence is new
is the answer. -/
def recordEvent (input : RecordEventInput) : NotificationProgram Bool :=
  .call (.insertEvent input) fun returned : Except Thrown (Option Nat) => do
    match ← awaited returned with
    | none => return false
    | some eventId =>
      fanOut table eventId input
      return true

/-! ## Runs -/

structure FailureContext where
  consecutiveFailures : Nat
  previousFailures : Nat
  failedStepName : JsString

/-- How many runs failed immediately before this one, and which step failed. The
first status is that of this run. -/
def failureContext (job : JobKey) (sqlInstanceId : Int) : NotificationProgram FailureContext :=
  .call (.selectOutcomes job sqlInstanceId 30) fun selected : Except Thrown (List Int) => do
    let previous ← awaited selected
    .call (.selectFailedStep job sqlInstanceId) fun found : Except Thrown (Option (Option JsString)) => do
      let failedStep ← awaited found
      return {
        consecutiveFailures := (previous.takeWhile (· = 0)).length
        previousFailures := ((previous.drop 1).takeWhile (· = 0)).length
        failedStepName := failedStep.join.getD [] }

/-- `${kind}:${instanceId}:${jobUuid}:${sqlInstanceId}`. -/
def occurrence (kind : NotificationEventKind) (instanceId : JsString) (run : IngestedRun) : JsString :=
  kind.text ++ js ":" ++ instanceId ++ js ":" ++ run.jobUuid ++ js ":" ++ decimal run.sqlInstanceId

/-- What is recorded of a run, with what is particular to the kind of event. -/
def runEvent (kind : NotificationEventKind) (instanceId : JsString) (job : JobContext) (run : IngestedRun)
    (particular : List (JsString × JsonValue)) : RecordEventInput where
  kind := kind
  dedupeKey := occurrence kind instanceId run
  instanceId := some instanceId
  workerId := none
  jobUuid := some run.jobUuid
  payload := [
    (js "instanceId", .string instanceId),
    (js "jobUuid", .string run.jobUuid),
    (js "jobName", .string job.jobName),
    (js "instanceName", .string job.instanceName),
    (js "hostName", .string job.hostName),
    (js "runDurationSeconds", .number run.runDurationSeconds),
    (js "message", run.message.elim .null .string)] ++ particular
  occurredAt := run.runDatetime

def failedEvent (instanceId : JsString) (job : JobContext) (run : IngestedRun) (history : FailureContext) :
    RecordEventInput :=
  runEvent .job_failed instanceId job run [
    (js "consecutiveFailures", .number history.consecutiveFailures),
    (js "stepName", .string history.failedStepName)]

def succeededEvent (instanceId : JsString) (job : JobContext) (run : IngestedRun) : RecordEventInput :=
  runEvent .job_succeeded instanceId job run []

def recoveredEvent (instanceId : JsString) (job : JobContext) (run : IngestedRun) (history : FailureContext) :
    RecordEventInput :=
  runEvent .job_recovered instanceId job run [(js "previousFailures", .number history.previousFailures)]

/-- The events of one run of a job. -/
def recordRun (instanceId : JsString) (job : JobContext) (run : IngestedRun) : NotificationProgram PUnit := do
  let history ← failureContext ⟨instanceId, run.jobUuid⟩ run.sqlInstanceId
  if run.runStatus = 0 then
    let _ ← recordEvent table (failedEvent instanceId job run history)
  else
    let _ ← recordEvent table (succeededEvent instanceId job run)
    if history.previousFailures > 0 then
      let _ ← recordEvent table (recoveredEvent instanceId job run history)

/-- Turn newly ingested runs into events. A run of a job that is not there is
passed over. -/
def onRunsIngested (instanceId : JsString) (runs : List IngestedRun) : NotificationProgram PUnit :=
  let outcomes := runs.filter fun run => run.runStatus = 0 ∨ run.runStatus = 1
  if outcomes = [] then pure ⟨⟩
  else
    .call (.selectJobs instanceId (outcomes.map (·.jobUuid)).eraseDups)
      fun selected : Except Thrown (List JobContext) => do
        let jobs ← awaited selected
        let context := JsMap.ofEntries (jobs.map fun job => (job.jobUuid, job))
        outcomes.forM fun run =>
          match context.get run.jobUuid with
          | none => pure ⟨⟩
          | some job => recordRun table instanceId job run

end Recording

/-! ## Delivery -/

def MAX_ATTEMPTS : Nat := 8

/-- `#deliver`: send one delivery. If that fails it is tried again later, or given
up. -/
def deliverDue (due : Due) : NotificationProgram Bool :=
  let sending : NotificationProgram Bool :=
    .call (.send due.channel due.event.input) fun sent : Except Thrown Unit => do
      awaited sent
      .call (.markSent due.delivery.key (due.delivery.attempts + 1)) fun marked : Except Thrown Unit => do
        awaited marked
        .call (.channelDelivered due.channel.id) fun updated : Except Thrown Unit => do
          awaited updated
          return true
  sending.tryCatch fun thrown =>
    let nextAttempts := due.delivery.attempts + 1
    let giveUp := ¬ thrown.retryable ∨ nextAttempts ≥ MAX_ATTEMPTS
    .call (.markFailed due.delivery.key (if giveUp then .failed else .pending) nextAttempts thrown.message
        (min (2 ^ nextAttempts * 1000) 600000)) fun marked : Except Thrown Unit => do
      awaited marked
      .call (.channelFailed due.channel.id thrown.message) fun updated : Except Thrown Unit => do
        awaited updated
        return false

/-- `drain`: send what is due, and count what was sent. -/
def drain (limit : Nat) : NotificationProgram Nat :=
  .call (.selectDue limit) fun selected : Except Thrown (List Due) => do
    let due ← awaited selected
    due.foldlM (fun sent row => do
      let delivered ← deliverDue row
      return if delivered then sent + 1 else sent) 0

end RemoteSqlAgent
