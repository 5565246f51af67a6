import RemoteSqlAgent.Hub
import RemoteSqlAgent.Notifications

/-! The stream of a worker, with every kind of message it can carry. What the hub
does with commands and versions is as before; here are the rest of the messages:
history, activity, the log of the agent, what became of configurations, renewals. -/
namespace RemoteSqlAgent
open Js CallProgram

/-! ## Messages -/

structure HistoryBatchMessage where
  instanceName : JsString
  rows : List HistoryRow

structure ActivityRow where
  jobUuid : JsString
  state : JsString
  currentStepId : Int
  currentStepName : JsString
  startExecutionDate : Option Timestamp
  lastExecutedStepDate : Option Timestamp
  nextScheduledRunDate : Option Timestamp
  lastRunOutcome : Int

structure ActivityUpdate where
  instanceName : JsString
  rows : List ActivityRow

structure AgentLogRow where
  loggedAt : Option Timestamp
  severity : JsString
  message : JsString
  processInfo : JsString

structure AgentLogBatch where
  instanceName : JsString
  rows : List AgentLogRow

structure InstanceConfigResult where
  instanceName : JsString
  status : JsString
  detail : JsString

/-- A message of a worker. The host name of a hello is logged if it is not the one
of the credential, and nothing else is done with it. -/
inductive StreamMessage where
  | hello (hostName : JsString) (hello : HubHello)
  | snapshot (snapshot : Snapshot)
  | definition (delta : DefinitionDelta)
  | history (batch : HistoryBatchMessage)
  | activity (update : ActivityUpdate)
  | agentLog (batch : AgentLogBatch)
  | commandResult (result : CommandResult)
  | heartbeat (instances : List JsString)
  | instanceConfigStatus (results : List InstanceConfigResult)
  | certificateRenewal (csrPem : JsString)

/-! ## Scrubbing -/

/-- A compiled pattern: whether it matches, and the text with each match replaced
by `[redacted]`. -/
structure ScrubPattern where
  test : JsString → Bool
  redact : JsString → JsString

/-- The patterns of a worker's rules. -/
structure HistoryScrubConfig where
  rules : List JsString

inductive ScrubRuleAction where
  | redact
  | drop

structure ScrubRule where
  pattern : JsString
  action : ScrubRuleAction

structure AgentLogScrubConfig where
  allowedSeverities : List JsString
  rules : List ScrubRule

section Scrubbing
-- `compile pattern` is `new RegExp(pattern, 'giu')`, which can throw.
variable (compile : JsString → Except JsString ScrubPattern)

/-- Only the message of a row can change. -/
def applyHistoryScrubRules (config : HistoryScrubConfig) (rows : List HistoryRow) :
    Except JsString (List HistoryRow) := do
  let compiled ← config.rules.mapM compile
  return rows.map fun row => { row with
    message := compiled.foldl (fun message pattern =>
      if pattern.test message then pattern.redact message else message) row.message }

/-- Apply the rules to a row in order. The first that drops it is the last. -/
def scrubRow : List (ScrubRuleAction × ScrubPattern) → AgentLogRow → Option AgentLogRow
  | [], row => some row
  | (action, pattern) :: rest, row =>
    if pattern.test row.message || pattern.test row.processInfo then
      match action with
      | .drop => none
      | .redact => scrubRow rest { row with
          message := pattern.redact row.message
          processInfo := pattern.redact row.processInfo }
    else scrubRow rest row

def applyScrubRules (config : AgentLogScrubConfig) (rows : List AgentLogRow) : Except JsString (List AgentLogRow) := do
  let compiled ← config.rules.mapM fun rule => do return (rule.action, ← compile rule.pattern)
  return rows.filterMap fun row => if row.severity ∈ config.allowedSeverities then scrubRow compiled row else none

end Scrubbing

/-! ## Rows -/

/-- A row of `job_activity`. Its job is the key it is stored under. -/
structure JobActivity where
  state : JsString
  currentStepId : Option Int
  currentStepName : Option JsString
  startedAt : Option Int
  lastExecutedStepAt : Option Int
  nextScheduledRunAt : Option Int
  lastRunOutcome : Int

/-- A date as it is bound. An invalid one cannot be. -/
def boundDate (ts : Option Timestamp) : Except JsString (Option Int) :=
  match fromTimestamp ts with
  | none => .ok none
  | some none => .error (js "Invalid time value")
  | some (some time) => .ok (some time)

/-- `value || null`. -/
def orNullNumber (value : Int) : Option Int := if value = 0 then none else some value

def activityValue (row : ActivityRow) : Except JsString JobActivity := do
  return {
    state := row.state
    currentStepId := orNullNumber row.currentStepId
    currentStepName := orNull row.currentStepName
    startedAt := ← boundDate row.startExecutionDate
    lastExecutedStepAt := ← boundDate row.lastExecutedStepDate
    nextScheduledRunAt := ← boundDate row.nextScheduledRunDate
    lastRunOutcome := row.lastRunOutcome }

/-- A row of `agent_log_entries`. -/
structure AgentLogEntry where
  instanceId : JsString
  loggedAt : Int
  severity : Option JsString
  message : JsString
  processInfo : Option JsString
  dedupeKey : JsString

/-- The unique index. -/
def AgentLogEntry.key (entry : AgentLogEntry) : JsString × JsString := (entry.instanceId, entry.dedupeKey)

inductive ConfigStatus where
  | awaiting_credentials
  | pending
  | connected
  | auth_failed
  | unreachable
  | decrypt_failed

/-- A status of a newer worker must not become `connected`. -/
def toConfigStatus (value : JsString) : ConfigStatus :=
  if value = js "connected" then .connected
  else if value = js "auth_failed" then .auth_failed
  else if value = js "unreachable" then .unreachable
  else if value = js "decrypt_failed" then .decrypt_failed
  else if value = js "awaiting_credentials" then .awaiting_credentials
  else .pending

inductive WorkerAuthMode where
  | mtls
  | token
  | entra
  deriving DecidableEq

def WorkerAuthMode.text : WorkerAuthMode → JsString
  | .mtls => js "mtls"
  | .token => js "token"
  | .entra => js "entra"

structure IssuedCertificate where
  serial : JsString
  fingerprint : JsString
  certificatePem : JsString
  caCertificatePem : JsString
  notAfter : Int

structure CertificateRenewalResponse where
  success : Bool
  errorDetail : JsString
  certificatePem : JsString
  caCertificatePem : JsString
  notAfter : Option Int

/-- The names an alert about a command gives, where they are found. -/
structure CommandContextRow where
  instanceName : JsString
  hostName : JsString
  jobName : Option JsString

/-! ## Calls -/

/-- What a session asks of its stream, the registry and the database. -/
inductive StreamCall where
  /-- The next message of the worker. -/
  | receive
  | hub (statement : HubCall)
  | history (statement : HistoryCall)
  | notification (statement : NotificationCall)
  | selectHistoryScrubConfig (workerId : JsString)
  | selectScrubConfig (workerId : JsString)
  | selectCommandContext (instanceId : JsString) (jobUuid : Option JsString)
  | upsertActivity (job : JobKey) (activity : JobActivity)
  | updateNextRun (job : JobKey) (nextRunAt : Int)
  | insertAgentLog (values : List AgentLogEntry)
  | raiseAgentLogMark (instanceId : JsString) (newest : Int)
  | updateConfigStatus (workerId instanceName : JsString) (status : ConfigStatus) (detail : Option JsString)
  /-- The certificate that the authority issues for a request. -/
  | issueClientCertificate (workerId hostName csrPem : JsString)
  /-- The transaction of a renewal. -/
  | storeRenewal (workerId currentCredentialId : JsString) (issued : IssuedCertificate)
  | sendRenewal (workerId : JsString) (response : CertificateRenewalResponse)
  /-- Whatever else the control plane does. -/
  | elsewhere

def StreamAnswer : StreamCall → Type
  | .receive => StreamMessage
  | .hub statement => HubAnswer statement
  | .history statement => HistoryAnswer statement
  | .notification statement => NotificationAnswer statement
  | .selectHistoryScrubConfig _ => Except JsString HistoryScrubConfig
  | .selectScrubConfig _ => Except JsString AgentLogScrubConfig
  | .selectCommandContext _ _ => Except JsString (Option CommandContextRow)
  | .upsertActivity _ _ => Except JsString Unit
  | .updateNextRun _ _ => Except JsString Unit
  | .insertAgentLog _ => Except JsString Unit
  | .raiseAgentLogMark _ _ => Except JsString Unit
  | .updateConfigStatus _ _ _ _ => Except JsString Unit
  | .issueClientCertificate _ _ _ => Except JsString IssuedCertificate
  | .storeRenewal _ _ _ => Except JsString Unit
  | .sendRenewal _ _ => Unit
  | .elsewhere => Unit

/-- What a handler throws is a text, and is logged. -/
abbrev Stream (α : Type) := CallProgram StreamCall StreamAnswer JsString α

def onHub {α : Type} (program : Hub α) : Stream (Except Unit α) :=
  program.within StreamCall.hub fun _ answer => answer

def onHistory {α : Type} (program : HistoryProgram α) : Stream (Except JsString α) :=
  program.within StreamCall.history fun _ answer => answer

def onNotifications {α : Type} (program : NotificationProgram α) : Stream (Except Thrown α) :=
  program.within StreamCall.notification fun _ answer => answer

structure StreamConfig where
  hub : HubConfig
  caseTable : CaseTable
  /-- `new RegExp(pattern, 'giu')`. -/
  compileScrubPattern : JsString → Except JsString ScrubPattern
  /-- `new Date(time).toISOString()`. -/
  toISOString : Int → JsString
  enabledModes : List WorkerAuthMode

/-- Whom a session was authenticated as, and with which credential. -/
structure StreamWorker extends AuthenticatedWorker where
  mode : WorkerAuthMode
  credentialId : JsString

/-! ## Handlers -/

section
variable (config : StreamConfig) (worker : StreamWorker) (remoteAddress : JsString)

/-- A batch of history, and the alerts of the runs it brings. A fault of the alerts
is only logged. -/
def handleHistory (session : HubSession) (batch : HistoryBatchMessage) : Stream Unit :=
  match session.instanceIds.get batch.instanceName with
  | none => return ()
  | some instanceId => do
    let scrubConfig ← CallProgram.call (.selectHistoryScrubConfig worker.workerId) orThrow
    let rows ← orThrow (applyHistoryScrubRules config.compileScrubPattern scrubConfig batch.rows)
    let result ← orThrow (← onHistory (ingestHistory instanceId rows))
    let _ ← onNotifications (onRunsIngested config.caseTable instanceId result.newRuns)
    return ()

/-- Store the activity of a job, and when it runs next if that is known. -/
def upsertActivityRow (instanceId : JsString) (row : ActivityRow) : Stream PUnit := do
  let activity ← orThrow (activityValue row)
  CallProgram.call (.upsertActivity ⟨instanceId, row.jobUuid⟩ activity) orThrow
  match activity.nextScheduledRunAt with
  | none => return ⟨⟩
  | some nextRun => CallProgram.call (.updateNextRun ⟨instanceId, row.jobUuid⟩ nextRun) orThrow

def handleActivity (session : HubSession) (update : ActivityUpdate) : Stream Unit :=
  match session.instanceIds.get update.instanceName with
  | none => return ()
  | some instanceId => update.rows.forM (upsertActivityRow instanceId)

/-- The log of the agent has no identity of its own, so its content is hashed. -/
def agentLogDedupeKey (loggedAt : Int) (message processInfo : JsString) : JsString :=
  hashCanonical config.hub.runtime.crypto (config.toISOString loggedAt ++ js "|" ++ processInfo ++ js "|" ++ message)

/-- A row of the log as it is stored, if it has a time. -/
def agentLogValue (instanceId : JsString) (row : AgentLogRow) : Option (Except JsString AgentLogEntry) :=
  (fromTimestamp row.loggedAt).map fun
    | none => .error (js "Invalid time value")
    | some loggedAt => .ok {
        instanceId := instanceId
        loggedAt := loggedAt
        severity := orNull row.severity
        message := row.message
        processInfo := orNull row.processInfo
        dedupeKey := agentLogDedupeKey config loggedAt row.message row.processInfo }

def ingestAgentLog (instanceId : JsString) (rows : List AgentLogRow) : Stream Unit := do
  match ← orThrow ((rows.filterMap (agentLogValue config instanceId)).mapM id) with
  | [] => return ()
  | first :: rest =>
    CallProgram.call (.insertAgentLog (first :: rest)) orThrow
    CallProgram.call
      (.raiseAgentLogMark instanceId (rest.foldl (fun newest value => max newest value.loggedAt) first.loggedAt))
      orThrow

def handleAgentLog (session : HubSession) (batch : AgentLogBatch) : Stream Unit :=
  match session.instanceIds.get batch.instanceName with
  | none => return ()
  | some instanceId => do
    let scrubConfig ← CallProgram.call (.selectScrubConfig worker.workerId) orThrow
    let kept ← orThrow (applyScrubRules config.compileScrubPattern scrubConfig batch.rows)
    ingestAgentLog config instanceId kept

/-- What the worker made of the configurations it was sent. -/
def recordInstanceConfigStatus (results : List InstanceConfigResult) : Stream Unit :=
  results.forM fun result => CallProgram.call
    (.updateConfigStatus worker.workerId result.instanceName (toConfigStatus result.status)
      (orNull result.detail)) orThrow

/-- An alert about a command that failed. -/
def commandFailed (result : CommandResult) (command : SettledCommand) (found : Option CommandContextRow)
    (occurredAt : Int) : RecordEventInput where
  kind := .command_failed
  dedupeKey := js "command.failed:" ++ result.commandId
  instanceId := some command.instanceId
  workerId := none
  jobUuid := command.jobUuid
  occurredAt := occurredAt
  payload := [
    (js "instanceId", .string command.instanceId),
    (js "jobUuid", .string (command.jobUuid.getD [])),
    (js "jobName", .string ((found.bind (·.jobName)).getD [])),
    (js "instanceName", .string ((found.map (·.instanceName)).getD [])),
    (js "hostName", .string ((found.map (·.hostName)).getD [])),
    (js "commandType", .string command.type.text),
    (js "resultCode", .string result.errorCode),
    (js "message", .string result.errorDetail),
    (js "issuedBy", .string (command.issuedByUsername.getD (js "unknown")))]

def onCommandFailed (result : CommandResult) (command : SettledCommand) : Stream Unit := do
  let found ← CallProgram.call (.selectCommandContext command.instanceId command.jobUuid) orThrow
  CallProgram.call (.hub .readClock) fun occurredAt : Int => do
  let _ ← onNotifications (recordEvent config.caseTable (commandFailed result command found occurredAt))
  return ()

/-- Record the job that results from a command of the worker, on the instance of
the command if that is one of the session. -/
def recordResultingJob (session : HubSession) (result : CommandResult) : Hub Unit :=
  match result.resultingJob with
  | none => return ()
  | some job => do
    match ← CallProgram.call (.command (.selectForWorker result.commandId worker.workerId)) orLog with
    | none => return ()
    | some command =>
      if command.instanceId ∈ session.instanceIds.values then
        let _ ← CallProgram.call
          (.job (.recordJobVersion (resultInput config.hub.runtime.crypto command result job))) orLog
        return ()
      else return ()

/-- Alert that a command of the worker failed. A fault of the alert is only logged. -/
def alertFailure (result : CommandResult) : Option SettledCommand → Stream Unit
  | none => return ()
  | some command =>
    if result.success then return ()
    else do
      let _ ← (onCommandFailed config result command).attempt
      return ()

/-- The result of a command. The alert comes between what is recorded of the
command and what is recorded of its job. -/
def handleResult (session : HubSession) (result : CommandResult) : Stream Unit := do
  match ← onHub (onCommands (recordResult {
      commandId := result.commandId
      workerId := worker.workerId
      success := result.success
      errorCode := result.errorCode
      errorDetail := result.errorDetail
      sqlErrorNumber := result.sqlErrorNumber
      hostName := session.hostName })) with
  | .ok (.ok settled) =>
    alertFailure config result settled
    let _ ← onHub (recordResultingJob config worker session result)
    return ()
  | _ => return ()

/-- A renewal that is refused. The session stays up. -/
def refuseRenewal (errorDetail : JsString) : Stream Unit :=
  CallProgram.call (.sendRenewal worker.workerId {
    success := false
    errorDetail := errorDetail
    certificatePem := []
    caCertificatePem := []
    notAfter := none }) fun _ => return ()

def renewWorkerCertificate (csrPem : JsString) : Stream IssuedCertificate :=
  if WorkerAuthMode.mtls ∉ config.enabledModes then
    .throw (js "Worker auth mode \"mtls\" is not enabled on this control plane.")
  else if csrPem = [] then .throw (js "Certificate renewal requires a signing request.")
  else
    CallProgram.call (.issueClientCertificate worker.workerId worker.hostName csrPem)
      fun answer : Except JsString IssuedCertificate =>
    match answer with
    | .error message => .throw (js "The certificate signing request was rejected: " ++ message)
    | .ok issued => do
      CallProgram.call (.storeRenewal worker.workerId worker.credentialId issued) orThrow
      return issued

def auditRenewal (action : JsString) : Stream Unit :=
  CallProgram.call (.hub (.command (.writeAudit {
    actorType := js "worker"
    actor := worker.hostName
    action := action
    target := some worker.workerId
    remoteAddress := some remoteAddress }))) fun written : Except JsString Unit => orThrow written

/-- A certificate that was issued is audited before it is sent, and is not sent if
that fails. -/
def renew (csrPem : JsString) : Stream Unit := do
  let issued ← renewWorkerCertificate config worker csrPem
  auditRenewal worker remoteAddress (js "worker.certificate.renewed")
  CallProgram.call (.sendRenewal worker.workerId {
    success := true
    errorDetail := []
    certificatePem := issued.certificatePem
    caCertificatePem := issued.caCertificatePem
    notAfter := some issued.notAfter }) fun _ => return ()

/-- Serve a request for a fresh certificate. Only a session that was authenticated
with one gets one. -/
def handleCertificateRenewal (csrPem : JsString) : Stream Unit :=
  if worker.mode ≠ .mtls then do
    let _ ← (auditRenewal worker remoteAddress (js "worker.certificate.renewal_refused")).attempt
    refuseRenewal worker (js "This worker authenticated with \"" ++ worker.mode.text ++
      js "\"; certificate renewal applies to mTLS workers only.")
  else do
    match ← (renew config worker remoteAddress csrPem).attempt with
    | .ok _ => return ()
    | .error message =>
      let _ ← (auditRenewal worker remoteAddress (js "worker.certificate.renewal_failed")).attempt
      refuseRenewal worker message

/-- Handle a message in the hub. -/
def inHub (session : HubSession) (message : HubMessage) : Stream HubSession := do
  match ← onHub (handleMessage config.hub worker.toAuthenticatedWorker remoteAddress session message) with
  | .error _ => return session
  | .ok after => return after

/-- Handle a message that leaves the session as it is. What is thrown is logged. -/
def logged (session : HubSession) (program : Stream Unit) : Stream HubSession := do
  let _ ← program.attempt
  return session

def handleStreamMessage (session : HubSession) : StreamMessage → Stream HubSession
  | .hello _ hello => inHub config worker remoteAddress session (.hello hello)
  | .snapshot snapshot => inHub config worker remoteAddress session (.snapshot snapshot)
  | .definition delta => inHub config worker remoteAddress session (.definition delta)
  | .history batch => logged session (handleHistory config worker session batch)
  | .activity update => logged session (handleActivity session update)
  | .agentLog batch => logged session (handleAgentLog config worker session batch)
  | .commandResult result => logged session (handleResult config worker session result)
  | .heartbeat instances => inHub config worker remoteAddress session (.heartbeat instances)
  | .instanceConfigStatus results => logged session (recordInstanceConfigStatus worker results)
  | .certificateRenewal csrPem => logged session (handleCertificateRenewal config worker remoteAddress csrPem)

/-- The queue of a session, for so many messages. -/
def handleStream (session : HubSession) : Nat → Stream HubSession
  | 0 => return session
  | count + 1 => CallProgram.call .receive fun message : StreamMessage => do
    let session ← handleStreamMessage config worker remoteAddress session message
    handleStream session count

/-- A session, of which so many messages are handled before it ends. -/
def streamSession (count : Nat) : Stream Unit := do
  let session ← handleStream config worker remoteAddress {
    hostName := worker.hostName, registered := false, instanceIds := [], pending := fun _ => none } count
  let _ ← onHub (teardown worker.toAuthenticatedWorker remoteAddress session)
  return ()

end

/-- What runs at the control plane side by side: sessions, operations on commands,
and the rest. -/
inductive StreamOperation where
  | session (number : Nat) (worker : StreamWorker) (remoteAddress : JsString) (count : Nat)
  | command (operation : CommandOperation)
  | elsewhere

def StreamOperation.body (config : StreamConfig) : StreamOperation → Stream Unit
  | .session _ worker remoteAddress count => streamSession config worker remoteAddress count
  | .command operation => do
    let _ ← onHub (onCommands (operation.body config.hub.service))
    return ()
  | .elsewhere => CallProgram.call .elsewhere fun _ => return ()

end RemoteSqlAgent
