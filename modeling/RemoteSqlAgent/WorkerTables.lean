import RemoteSqlAgent.CommandRules
import RemoteSqlAgent.WorkerStream

/-! The tables of the control plane, by the worker that each row belongs to. A row
belongs to a worker by its id, or to an instance, and an instance to the worker
that declared it. -/
namespace RemoteSqlAgent
open Js CallProgram

/-! ## Rows -/

/-- A row of `workers`. Its id is the key it is stored under. -/
structure WorkersRow where
  hostName : JsString
  capabilities : List JsString
  version : Option JsString
  maxCapabilityReported : Option JsString
  credentialPublicKeyPem : Option JsString
  credentialKeyFingerprint : Option JsString
  certSerial : Option JsString
  certExpiresAt : Option Int
  connectedAt : Option Int
  lastSeenAt : Option Int
  lastRemoteAddress : Option JsString

/-- The columns of an instance that the worker reports. -/
structure InstanceColumns where
  serverName : Option JsString
  sqlVersion : Option JsString
  sqlEdition : Option JsString
  agentStatus : JsString
  jobWriteMode : Option JsonValue
  lastSeenAt : Int

inductive SqlAuthMode where
  | integrated
  | sql
  deriving DecidableEq

structure WorkerInstanceConfig where
  workerId : JsString
  instanceName : JsString
  serverAddress : JsString
  authMode : SqlAuthMode
  loginName : Option JsString
  credentialCiphertext : Option JsString
  credentialKeyFingerprint : Option JsString
  encryptTls : Bool
  trustServerCertificate : Bool
  environmentTag : Option JsString
  status : ConfigStatus
  statusDetail : Option JsString
  statusAt : Option Int

structure WorkerCredential where
  id : JsString
  workerId : JsString
  mode : WorkerAuthMode
  certSerial : Option JsString
  certFingerprint : Option JsString
  certPem : Option JsString
  label : Option JsString
  expiresAt : Option Int
  revokedAt : Option Int
  revokedReason : Option JsString

/-- What is sent to a worker besides commands. -/
inductive StreamPush where
  | helloAck (capabilities : List Capability)
  | instanceConfigs (configs : List WorkerInstanceConfig)
  | certificateRenewal (response : CertificateRenewalResponse)

/-! ## Tables -/

/-- The tables besides commands, jobs and instances, and a log of what was sent to
whom. The columns that history and activity fill are kept by themselves. -/
structure WorkerTables where
  workers : JsString → Option WorkersRow
  instanceColumns : JsString → Option InstanceColumns
  jobHistory : KeyedTable JobHistoryRow.key
  historyHighWaterMark : JsString → Option Int
  agentLogHighWaterMark : JsString → Option Int
  lastRun : JobKey → Option LastRun
  nextRunAt : JobKey → Option Int
  jobActivity : JobKey → Option JobActivity
  agentLogEntries : KeyedTable AgentLogEntry.key
  workerInstanceConfigs : List WorkerInstanceConfig
  workerCredentials : List WorkerCredential
  sent : List (JsString × StreamPush)

/-- The rows of a list that pass a test, changed where they stand. -/
def updateWhere {Row : Type} (rows : List Row) (test : Row → Bool) (change : Row → Row) : List Row :=
  rows.map fun row => if test row then change row else row

namespace WorkerTables

def updateWorker (tables : WorkerTables) (workerId : JsString) (change : WorkersRow → WorkersRow) : WorkerTables :=
  { tables with workers := Function.update tables.workers workerId ((tables.workers workerId).map change) }

def updateConfigs (tables : WorkerTables) (test : WorkerInstanceConfig → Bool) (status : ConfigStatus)
    (detail : Option JsString) (now : Int) : WorkerTables :=
  { tables with workerInstanceConfigs := updateWhere tables.workerInstanceConfigs test fun row =>
      { row with status := status, statusDetail := detail, statusAt := some now } }

def push (tables : WorkerTables) (workerId : JsString) (message : StreamPush) : WorkerTables :=
  { tables with sent := tables.sent ++ [(workerId, message)] }

/-- The key that a worker has just published. -/
def publishKey (tables : WorkerTables) (workerId publicKeyPem fingerprint : JsString) : WorkerTables :=
  tables.updateWorker workerId fun row => { row with
    credentialPublicKeyPem := some publicKeyPem
    credentialKeyFingerprint := some fingerprint }

/-- Whether a worker had another key. -/
def hadOtherKey (tables : WorkerTables) (workerId fingerprint : JsString) : Bool :=
  ((tables.workers workerId).bind (·.credentialKeyFingerprint)).any fun old => old ≠ fingerprint

/-- No ciphertext of a worker can be opened any more. -/
def invalidateCredentials (tables : WorkerTables) (workerId : JsString) (now : Int) : WorkerTables :=
  tables.updateConfigs (fun row => row.workerId = workerId ∧ row.authMode = .sql) .awaiting_credentials
    (some (js ("The worker generated a new key, so the stored credential can no longer be decrypted. " ++
      "Enter it again."))) now

/-- The configurations a worker is sent. -/
def configsOf (tables : WorkerTables) (workerId : JsString) : List WorkerInstanceConfig :=
  tables.workerInstanceConfigs.filter (·.workerId = workerId)

/-- The row of a certificate that was issued. -/
def renewedCredential (workerId id : JsString) (issued : IssuedCertificate) : WorkerCredential where
  id := id
  workerId := workerId
  mode := .mtls
  certSerial := some issued.serial
  certFingerprint := some issued.fingerprint
  certPem := some issued.certificatePem
  label := some (js "Renewed")
  expiresAt := some issued.notAfter
  revokedAt := none
  revokedReason := none

/-- The transaction of a renewal. Only the new certificate and the one in use stay
valid. -/
def storeRenewal (tables : WorkerTables) (workerId currentCredentialId id : JsString) (issued : IssuedCertificate)
    (now : Int) : WorkerTables :=
  let superseded := fun row : WorkerCredential => decide (row.workerId = workerId ∧ row.mode = .mtls ∧
    row.revokedAt = none ∧ row.id ≠ id ∧ row.id ≠ currentCredentialId)
  { tables.updateWorker workerId fun row => { row with
      certSerial := some issued.serial, certExpiresAt := some issued.notAfter } with
    workerCredentials := updateWhere (tables.workerCredentials ++ [renewedCredential workerId id issued]) superseded
      fun row => { row with
        revokedAt := some now, revokedReason := some (js "Superseded by certificate renewal") } }

end WorkerTables

structure StreamStore where
  commands : CommandStore
  jobs : JobTables
  instances : KeyedTable InstanceRow.id
  tables : WorkerTables

namespace StreamStore

/-- What the hub sees of it. -/
def hub (store : StreamStore) : HubStore where
  commands := store.commands
  tables := store.jobs
  instances := store.instances.rows

/-- What the ingestion of history sees of it. -/
def mirror (store : StreamStore) : MirrorStore where
  jobHistory := store.tables.jobHistory
  syncState := store.tables.historyHighWaterMark
  tables := store.jobs
  lastRun := store.tables.lastRun

def withMirror (store : StreamStore) (mirror : MirrorStore) : StreamStore :=
  { store with tables := { store.tables with
      jobHistory := mirror.jobHistory
      historyHighWaterMark := mirror.syncState
      lastRun := mirror.lastRun } }

/-- The instance is one of the worker. -/
def Owns (store : StreamStore) (workerId instanceId : JsString) : Prop :=
  ∃ row ∈ store.instances.rows, row.id = instanceId ∧ row.workerId = workerId

instance (store : StreamStore) (workerId instanceId : JsString) : Decidable (store.Owns workerId instanceId) :=
  inferInstanceAs (Decidable (∃ row ∈ store.instances.rows, _))

/-- The command is one of the worker. -/
def Commands (store : StreamStore) (workerId commandId : JsString) : Prop :=
  ∃ row, store.commands.commands commandId = some row ∧ row.workerId = workerId

/-- An instance is of one worker. -/
theorem Owns.unique {store : StreamStore} {workerId other instanceId : JsString} (owns : store.Owns workerId instanceId)
    (also : store.Owns other instanceId) : workerId = other := by
  obtain ⟨row, member, rfl, rfl⟩ := owns
  obtain ⟨second, there, same, rfl⟩ := also
  rw [store.instances.eq_of_key member there same.symm]

end StreamStore

/-! ## Effects -/

/-- What a call of the hub does to the other tables. What the worker says of an
instance besides its name can be anything, and a stream may not take a message. -/
def HubCall.Writes (crypto : Crypto) (tables : WorkerTables) :
    (call : HubCall) → HubAnswer call → WorkerTables → Prop
  | .recordWorkerHello workerId version maxCapabilityReported remoteAddress, .ok found, after => ∃ row now,
    tables.workers workerId = some row ∧ found = ⟨row.hostName, row.capabilities⟩ ∧
      after = tables.updateWorker workerId fun row => { row with
        version := some version
        maxCapabilityReported := some maxCapabilityReported
        connectedAt := some now
        lastSeenAt := some now
        lastRemoteAddress := some remoteAddress }
  | .recordCredentialKey workerId publicKey, .ok changed, after => ∃ der now, crypto.spkiDer publicKey = some der ∧
    changed = tables.hadOtherKey workerId (js (crypto.sha256 der)) ∧
      after = let published := tables.publishKey workerId publicKey (js (crypto.sha256 der))
        if changed then published.invalidateCredentials workerId now else published
  | .recordCredentialKey workerId publicKey, .error _, after => after = tables ∨
    ∃ der, crypto.spkiDer publicKey = some der ∧ after = tables.publishKey workerId publicKey (js (crypto.sha256 der))
  | .upsertInstance _ _, .ok id, after =>
    ∃ columns, after = { tables with instanceColumns := Function.update tables.instanceColumns id (some columns) }
  | .insertSyncState instanceId, .ok _, after => after = { tables with
      historyHighWaterMark := Function.update tables.historyHighWaterMark instanceId
        (some ((tables.historyHighWaterMark instanceId).getD 0)) }
  | .touchWorker workerId, .ok _, after =>
    ∃ now, after = tables.updateWorker workerId fun row => { row with lastSeenAt := some now }
  | .sendHelloAck workerId capabilities, _, after =>
    after = tables ∨ after = tables.push workerId (.helloAck capabilities)
  | .pushInstanceConfigs workerId, .ok _, after =>
    after = tables ∨ after = tables.push workerId (.instanceConfigs (tables.configsOf workerId))
  | .markWorkerDisconnected workerId, .ok _, after =>
    after = tables.updateWorker workerId fun row => { row with connectedAt := none }
  | _, _, after => after = tables

/-- The statement failed. -/
def HistoryCall.Failed : (call : HistoryCall) → HistoryAnswer call → Prop
  | .insertHistory _, answer => ∃ message, answer = .error message
  | .raiseHighWaterMark _ _, answer => ∃ message, answer = .error message
  | .selectHighWaterMark _, answer => ∃ message, answer = .error message
  | .selectLatest _, answer => ∃ message, answer = .error message
  | .updateLastRun _ _, answer => ∃ message, answer = .error message

/-- What a call can answer and do. Rules, events and deliveries belong to no worker
and are left out. What goes on elsewhere never takes an instance or a command from
its worker. -/
def StreamCall.Does (runtime : Runtime) (store : StreamStore) :
    (call : StreamCall) → StreamAnswer call → StreamStore → Prop
  | .hub statement, answer, after => statement.Does runtime store.hub answer after.hub ∧
    statement.Writes runtime.crypto store.tables answer after.tables
  | .history statement, answer, after =>
    (answer = (statement.respond store.mirror).1 ∧ after = store.withMirror (statement.respond store.mirror).2) ∨
      (statement.Failed answer ∧ after = store)
  | .upsertActivity job activity, .ok _, after => after = { store with
      tables := { store.tables with jobActivity := Function.update store.tables.jobActivity job (some activity) } }
  | .updateNextRun job nextRunAt, .ok _, after => after = { store with
      tables := { store.tables with
        nextRunAt := Function.update store.tables.nextRunAt job
          (if (store.jobs.jobs job).isSome then some nextRunAt else store.tables.nextRunAt job) } }
  | .insertAgentLog values, .ok _, after => after = { store with
      tables := { store.tables with agentLogEntries := (store.tables.agentLogEntries.insertNew values).1 } }
  | .raiseAgentLogMark instanceId newest, .ok _, after => after = { store with
      tables := { store.tables with
        historyHighWaterMark := Function.update store.tables.historyHighWaterMark instanceId
          (some ((store.tables.historyHighWaterMark instanceId).getD 0))
        agentLogHighWaterMark := Function.update store.tables.agentLogHighWaterMark instanceId
          (some (MirrorStore.raised (store.tables.agentLogHighWaterMark instanceId) newest)) } }
  | .updateConfigStatus workerId instanceName status detail, .ok _, after => ∃ now, after = { store with
      tables := store.tables.updateConfigs
        (fun row => row.workerId = workerId ∧ row.instanceName = instanceName) status detail now }
  | .storeRenewal workerId currentCredentialId issued, .ok _, after => ∃ id now,
    id ∉ store.tables.workerCredentials.map (·.id) ∧
      after = { store with tables := store.tables.storeRenewal workerId currentCredentialId id issued now }
  | .sendRenewal workerId response, _, after => after = store ∨
    after = { store with tables := store.tables.push workerId (.certificateRenewal response) }
  | .elsewhere, _, after => store.instances.rows ⊆ after.instances.rows ∧
    ∀ workerId commandId, store.Commands workerId commandId → after.Commands workerId commandId
  | _, _, after => after = store

/-! ## What belongs to a worker -/

/-- Everything that belongs to a worker is as it was: its row, its instances with
their jobs, history, activity, log and marks, its configurations, its credentials and
its commands. Nothing was sent to it either. -/
structure Untouched (workerId : JsString) (before after : StreamStore) : Prop where
  worker : after.tables.workers workerId = before.tables.workers workerId
  instances : after.instances.rows.filter (·.workerId = workerId) = before.instances.rows.filter (·.workerId = workerId)
  instanceColumns : ∀ id, before.Owns workerId id → after.tables.instanceColumns id = before.tables.instanceColumns id
  jobs : ∀ key : JobKey, before.Owns workerId key.instanceId → after.jobs.jobs key = before.jobs.jobs key
  jobVersions : ∀ key : JobKey, before.Owns workerId key.instanceId →
    after.jobs.jobVersions key = before.jobs.jobVersions key
  lastRun : ∀ key : JobKey, before.Owns workerId key.instanceId → after.tables.lastRun key = before.tables.lastRun key
  nextRunAt : ∀ key : JobKey, before.Owns workerId key.instanceId →
    after.tables.nextRunAt key = before.tables.nextRunAt key
  jobHistory : after.tables.jobHistory.rows.filter (fun row => before.Owns workerId row.instanceId) =
    before.tables.jobHistory.rows.filter (fun row => before.Owns workerId row.instanceId)
  jobActivity : ∀ key : JobKey, before.Owns workerId key.instanceId →
    after.tables.jobActivity key = before.tables.jobActivity key
  agentLogEntries : after.tables.agentLogEntries.rows.filter (fun row => before.Owns workerId row.instanceId) =
    before.tables.agentLogEntries.rows.filter (fun row => before.Owns workerId row.instanceId)
  historyHighWaterMark : ∀ id, before.Owns workerId id →
    after.tables.historyHighWaterMark id = before.tables.historyHighWaterMark id
  agentLogHighWaterMark : ∀ id, before.Owns workerId id →
    after.tables.agentLogHighWaterMark id = before.tables.agentLogHighWaterMark id
  workerInstanceConfigs : after.tables.workerInstanceConfigs.filter (·.workerId = workerId) =
    before.tables.workerInstanceConfigs.filter (·.workerId = workerId)
  workerCredentials : after.tables.workerCredentials.filter (·.workerId = workerId) =
    before.tables.workerCredentials.filter (·.workerId = workerId)
  commands : ∀ id row, row.workerId = workerId →
    (after.commands.commands id = some row ↔ before.commands.commands id = some row)
  sentCommands : after.commands.sent.filter (·.1 = workerId) = before.commands.sent.filter (·.1 = workerId)
  sent : after.tables.sent.filter (·.1 = workerId) = before.tables.sent.filter (·.1 = workerId)

theorem Untouched.refl (workerId : JsString) (store : StreamStore) : Untouched workerId store store := by
  constructor <;> simp

/-- The worker has the instances it had. -/
theorem Untouched.owns {workerId : JsString} {before after : StreamStore} (untouched : Untouched workerId before after)
    {id : JsString} : after.Owns workerId id ↔ before.Owns workerId id := by
  have each : ∀ store : StreamStore, store.Owns workerId id ↔
      ∃ row ∈ store.instances.rows.filter (·.workerId = workerId), row.id = id := by
    intro store
    simp only [StreamStore.Owns, List.mem_filter, decide_eq_true_eq]
    exact exists_congr fun row => by tauto
  rw [each, each, untouched.instances]

theorem Untouched.trans {workerId : JsString} {before between after : StreamStore}
    (first : Untouched workerId before between) (second : Untouched workerId between after) :
    Untouched workerId before after where
  worker := second.worker.trans first.worker
  instances := second.instances.trans first.instances
  instanceColumns id owns := (second.instanceColumns id (first.owns.mpr owns)).trans (first.instanceColumns id owns)
  jobs key owns := (second.jobs key (first.owns.mpr owns)).trans (first.jobs key owns)
  jobVersions key owns := (second.jobVersions key (first.owns.mpr owns)).trans (first.jobVersions key owns)
  lastRun key owns := (second.lastRun key (first.owns.mpr owns)).trans (first.lastRun key owns)
  nextRunAt key owns := (second.nextRunAt key (first.owns.mpr owns)).trans (first.nextRunAt key owns)
  jobHistory := by simpa only [first.owns]
    using second.jobHistory.trans (by simpa only [first.owns] using first.jobHistory)
  jobActivity key owns := (second.jobActivity key (first.owns.mpr owns)).trans (first.jobActivity key owns)
  agentLogEntries := by
    simpa only [first.owns] using second.agentLogEntries.trans (by simpa only [first.owns] using first.agentLogEntries)
  historyHighWaterMark id owns :=
    (second.historyHighWaterMark id (first.owns.mpr owns)).trans (first.historyHighWaterMark id owns)
  agentLogHighWaterMark id owns :=
    (second.agentLogHighWaterMark id (first.owns.mpr owns)).trans (first.agentLogHighWaterMark id owns)
  workerInstanceConfigs := second.workerInstanceConfigs.trans first.workerInstanceConfigs
  workerCredentials := second.workerCredentials.trans first.workerCredentials
  commands id row mine := (second.commands id row mine).trans (first.commands id row mine)
  sentCommands := second.sentCommands.trans first.sentCommands
  sent := second.sent.trans first.sent

end RemoteSqlAgent
