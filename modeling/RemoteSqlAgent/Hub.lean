import RemoteSqlAgent.CommandService
import RemoteSqlAgent.JsMap
import RemoteSqlAgent.SnapshotAssembly

/-! The sessions of workers at the control plane. Each session has a queue: its
messages are handled one after the other, and what a handler throws is only
logged. Sessions run side by side, with each other and with the operations on
commands; their transactions are the steps. -/
namespace RemoteSqlAgent
open Js CallProgram

structure HubHello where
  workerVersion : JsString
  maxCapability : JsString
  instances : List JsString
  credentialPublicKey : JsString

structure DefinitionDelta where
  instanceName : JsString
  job : Option JobDefinitionBlob
  deleted : Bool
  appliedCommandId : JsString

/-- A message of a worker. `other` is one that writes neither commands nor
versions: history, activity, the log of the agent, a renewal. -/
inductive HubMessage where
  | hello (hello : HubHello)
  | snapshot (snapshot : Snapshot)
  | definition (delta : DefinitionDelta)
  | commandResult (result : CommandResult)
  | heartbeat (instances : List JsString)
  | other

/-- Whom a session was authenticated as. -/
structure AuthenticatedWorker where
  workerId : JsString
  hostName : JsString

structure HelloRow where
  hostName : JsString
  capabilities : List JsString

/-- What a session asks of its stream, the registry and the database. -/
inductive HubCall where
  /-- The next message of the worker. -/
  | receive
  | command (statement : CommandCall)
  | job (statement : JobCall)
  | readClock
  | recordWorkerHello (workerId version maxCapabilityReported : JsString) (remoteAddress : JsString)
  | recordCredentialKey (workerId publicKey : JsString)
  | upsertInstance (workerId instanceName : JsString)
  | insertSyncState (instanceId : JsString)
  | touchWorker (workerId : JsString)
  /-- Make this the live session of the worker. It tells if another was. -/
  | register (workerId : JsString)
  | unregister (workerId : JsString)
  | sendHelloAck (workerId : JsString) (capabilities : List Capability)
  | pushInstanceConfigs (workerId : JsString)
  | markWorkerDisconnected (workerId : JsString)

def HubAnswer : HubCall → Type
  | .receive => HubMessage
  | .command statement => CommandAnswer statement
  | .job statement => JobAnswer statement
  | .readClock => Int
  | .recordWorkerHello _ _ _ _ => Except JsString HelloRow
  | .recordCredentialKey _ _ => Except JsString Bool
  | .upsertInstance _ _ => Except JsString JsString
  | .insertSyncState _ => Except JsString Unit
  | .touchWorker _ => Except JsString Unit
  | .register _ => Bool
  | .unregister _ => Unit
  | .sendHelloAck _ _ => Unit
  | .pushInstanceConfigs _ => Except JsString Unit
  | .markWorkerDisconnected _ => Except JsString Unit

/-- What a handler throws is logged, and nobody looks at it. -/
abbrev Hub (α : Type) := CallProgram HubCall HubAnswer Unit α

/-- A statement that fails throws. -/
def orLog {α : Type} : Except JsString α → Hub α
  | .error _ => .throw ()
  | .ok value => .done value

/-- Run an operation on commands, or on jobs. -/
def onCommands {α : Type} (program : Service α) : Hub (Except ServiceError α) :=
  program.within HubCall.command fun _ answer => answer

def onJobs {α : Type} (program : JobProgram α) : Hub (Except JsString α) :=
  program.within HubCall.job fun _ answer => answer

structure HubConfig where
  runtime : Runtime
  service : ServiceConfig
  /-- `checkWorkerVersion(version, config.minimumWorkerVersion).allowed`. -/
  versionAllowed : JsString → Bool

/-! ## Handlers -/

/-- What a session keeps between messages. -/
structure HubSession where
  hostName : JsString
  /-- Whether a hello has made it the session of its worker. -/
  registered : Bool
  /-- The ids of the instances that were declared, by name. -/
  instanceIds : JsMap JsString
  pending : PendingSnapshots

namespace HubSession

def snapshots (session : HubSession) : SnapshotSession where
  instanceIds := session.instanceIds.get
  pending := session.pending

def declareInstances (session : HubSession) (ids : List (JsString × JsString)) : HubSession :=
  { session with instanceIds := ids.foldl (fun (map : JsMap JsString) id => map.set id.1 id.2) session.instanceIds }

theorem snapshots_declareInstances (session : HubSession) (ids : List (JsString × JsString)) :
    (session.declareInstances ids).snapshots = session.snapshots.declareInstances ids := by
  have folded : ∀ map : JsMap JsString, (ids.foldl (fun (map : JsMap JsString) id => map.set id.1 id.2) map).get =
      ids.foldl (fun (map : JsString → Option JsString) id => Function.update map id.1 (some id.2)) map.get := by
    induction ids with
    | nil => exact fun map => rfl
    | cons id rest ih =>
      intro map
      rw [List.foldl_cons, List.foldl_cons, ih]
      congr 1
      funext name
      rw [JsMap.get_set, Function.update_apply]
      simp only [eq_comm]
  exact congrArg (SnapshotSession.mk · session.pending) (folded session.instanceIds)

end HubSession

/-- Go on with what a program gives, or leave the message there. -/
def proceed {α : Type} (program : Hub α) (session : HubSession) (next : α → Hub HubSession) : Hub HubSession := do
  match ← program.attempt with
  | .error _ => return session
  | .ok value => next value

/-- Upsert the instances a worker reports. -/
def upsertInstances (workerId : JsString) : List JsString → Hub (List (JsString × JsString))
  | [] => return []
  | name :: rest => do
    let id ← CallProgram.call (.upsertInstance workerId name) orLog
    CallProgram.call (.insertSyncState id) orLog
    let others ← upsertInstances workerId rest
    return (name, id) :: others

def audit (actor action : JsString) (target : Option JsString) (remoteAddress : JsString) : Hub Unit :=
  CallProgram.call (.command (.writeAudit {
    actorType := js "worker"
    actor := actor
    action := action
    target := target
    remoteAddress := some remoteAddress })) orLog

section
variable (config : HubConfig) (worker : AuthenticatedWorker) (remoteAddress : JsString)

/-- Publish the credential key, and audit that it was rotated. A fault in either
is only logged. -/
def publishCredentialKey (hostName publicKey : JsString) : Hub Unit := do
  if publicKey ≠ [] then
    let _ ← attempt do
      let changed ← CallProgram.call (.recordCredentialKey worker.workerId publicKey) orLog
      if changed then audit hostName (js "worker.credential_key.rotated") (some worker.workerId) remoteAddress
  return ()

/-- A hello. It declares the instances and registers the session, and sends what
was approved in the meantime. -/
def handleHello (session : HubSession) (hello : HubHello) : Hub HubSession :=
  if ¬ config.versionAllowed hello.workerVersion then
    proceed (audit worker.hostName (js "worker.rejected.version") (some worker.workerId) remoteAddress) session
      fun _ => return session
  else
    proceed (CallProgram.call (.recordWorkerHello worker.workerId hello.workerVersion hello.maxCapability remoteAddress)
      orLog) session fun row =>
    let session := { session with hostName := row.hostName }
    proceed (publishCredentialKey worker remoteAddress row.hostName hello.credentialPublicKey) session fun _ =>
    proceed (upsertInstances worker.workerId hello.instances) session fun ids =>
    let session := session.declareInstances ids
    match capabilitiesUnder row.capabilities hello.maxCapability with
    | .error _ => return session
    | .ok capabilities =>
      CallProgram.call (.register worker.workerId) fun _ =>
      let session := { session with registered := true }
      proceed (audit row.hostName (js "worker.connected") (some worker.workerId) remoteAddress) session fun _ =>
      CallProgram.call (.sendHelloAck worker.workerId capabilities) fun _ =>
      proceed (CallProgram.call (.pushInstanceConfigs worker.workerId) orLog) session fun _ => do
      let _ ← onCommands (dispatchPendingFor config.service worker.workerId)
      return session

/-- A chunk of a snapshot. One for an instance that was not declared is ignored. -/
def handleSnapshot (session : HubSession) (snapshot : Snapshot) : Hub HubSession :=
  match session.instanceIds.get snapshot.instanceName with
  | none => return session
  | some _ =>
    CallProgram.call .readClock fun sweptAt : Int => CallProgram.call .readClock fun startedAt : Int => do
    let (snapshots, committed) := session.snapshots.on (.chunk ⟨snapshot, sweptAt, startedAt⟩)
    let session := { session with pending := snapshots.pending }
    match committed with
    | none => return session
    | some commit =>
      let _ ← onJobs (commitSnapshot config.runtime.crypto commit.instanceId commit.jobs)
      return session

/-- What a delta records for its job. -/
def deltaInput (crypto : Crypto) (instanceId : JsString) (delta : DefinitionDelta) (job : JobDefinitionBlob) :
    RecordVersionInput where
  instanceId := instanceId
  jobUuid := job.jobUuid
  canonicalJson := job.canonicalJson
  definitionHash := (verifyBlobHash crypto job).definitionHash
  origin := if delta.appliedCommandId = [] then .local else .remote
  commandId := orNull delta.appliedCommandId
  createdBy := none
  detectedAt := none

/-- A change of one job, or its end. -/
def handleDefinition (session : HubSession) (delta : DefinitionDelta) : Hub HubSession :=
  match session.instanceIds.get delta.instanceName, delta.job with
  | some instanceId, some job => do
    if delta.deleted then
      let _ ← attempt (CallProgram.call (.job (.markJobDeleted instanceId job.jobUuid)) orLog)
      return session
    else
      let _ ← attempt (CallProgram.call
        (.job (.recordJobVersion (deltaInput config.runtime.crypto instanceId delta job))) orLog)
      return session
  | _, _ => return session

/-- What the result of a command records for the job that results: the work of the
command if it succeeded, and what is on the box if it did not. -/
def resultInput (crypto : Crypto) (command : CommandRow) (result : CommandResult) (job : JobDefinitionBlob) :
    RecordVersionInput where
  instanceId := command.instanceId
  jobUuid := job.jobUuid
  canonicalJson := job.canonicalJson
  definitionHash := (verifyBlobHash crypto job).definitionHash
  origin := if result.success then .remote else .local
  commandId := if result.success then some result.commandId else none
  createdBy := if result.success then command.issuedBy else none
  detectedAt := none

/-- The result of a command. The job that results is recorded on the instance of
the command, if the command is one of the worker and its instance one of the
session. -/
def handleCommandResult (session : HubSession) (result : CommandResult) : Hub HubSession := do
  match ← onCommands (recordResult {
      commandId := result.commandId
      workerId := worker.workerId
      success := result.success
      errorCode := result.errorCode
      errorDetail := result.errorDetail
      sqlErrorNumber := result.sqlErrorNumber
      hostName := session.hostName }) with
  | .error _ => return session
  | .ok _ =>
    match result.resultingJob with
    | none => return session
    | some job =>
      proceed (CallProgram.call (.command (.selectForWorker result.commandId worker.workerId)) orLog) session
        fun command => do
      match command with
      | none => return session
      | some command =>
        if command.instanceId ∈ session.instanceIds.values then
          let _ ← attempt (CallProgram.call
            (.job (.recordJobVersion (resultInput config.runtime.crypto command result job))) orLog)
          return session
        else return session

/-- A heartbeat, with the instances there are now. -/
def handleHeartbeat (session : HubSession) (instances : List JsString) : Hub HubSession :=
  proceed (CallProgram.call (.touchWorker worker.workerId) orLog) session fun _ =>
  proceed (upsertInstances worker.workerId instances) session fun ids =>
  return session.declareInstances ids

def handleMessage (session : HubSession) : HubMessage → Hub HubSession
  | .hello hello => handleHello config worker remoteAddress session hello
  | .snapshot snapshot => handleSnapshot config session snapshot
  | .definition delta => handleDefinition config session delta
  | .commandResult result => handleCommandResult config worker session result
  | .heartbeat instances => handleHeartbeat worker session instances
  | .other => return session

/-- The queue of a session, for so many messages. -/
def handleMessages (session : HubSession) : Nat → Hub HubSession
  | 0 => return session
  | count + 1 => CallProgram.call .receive fun message : HubMessage => do
    let session ← handleMessage config worker remoteAddress session message
    handleMessages session count

/-- The end of a session that was registered. -/
def teardown (session : HubSession) : Hub Unit :=
  if session.registered then
    CallProgram.call (.unregister worker.workerId) fun _ => do
    CallProgram.call (.markWorkerDisconnected worker.workerId) orLog
    audit session.hostName (js "worker.disconnected") (some worker.workerId) remoteAddress
  else return ()

/-- A session, of which so many messages are handled before it ends. -/
def handleSession (count : Nat) : Hub Unit := do
  let session ← handleMessages config worker remoteAddress {
    hostName := worker.hostName, registered := false, instanceIds := [], pending := fun _ => none } count
  teardown worker remoteAddress session

end

/-- What runs at the control plane side by side. Sessions are numbered as they are
opened. -/
inductive HubOperation where
  | session (number : Nat) (worker : AuthenticatedWorker) (remoteAddress : JsString) (count : Nat)
  | command (operation : CommandOperation)

def HubOperation.body (config : HubConfig) : HubOperation → Hub Unit
  | .session _ worker remoteAddress count => handleSession config worker remoteAddress count
  | .command operation => do
    let _ ← onCommands (operation.body config.service)
    return ()

/-! ## The database -/

structure InstanceRow where
  id : JsString
  workerId : JsString
  instanceName : JsString

/-- Commands, jobs and instances. -/
structure HubStore where
  commands : CommandStore
  tables : JobTables
  instances : List InstanceRow

namespace HubStore

def empty : HubStore where
  commands := .empty
  tables := .empty
  instances := []

/-- The id of an instance of a worker. -/
def instanceId (store : HubStore) (workerId instanceName : JsString) : Option JsString :=
  (store.instances.find? fun row => row.workerId = workerId ∧ row.instanceName = instanceName).map (·.id)

def addInstance (store : HubStore) (workerId instanceName id : JsString) : HubStore :=
  { store with instances := store.instances ++ [⟨id, workerId, instanceName⟩] }

end HubStore

/-- What a call can answer and do. A worker says what it likes. -/
def HubCall.Does (runtime : Runtime) (store : HubStore) : (call : HubCall) → HubAnswer call → HubStore → Prop
  | .command statement, answer, after => ∃ commands, statement.Does store.commands answer commands ∧
    after = { store with commands := commands }
  | .job statement, answer, after => ∃ tables, statement.Does runtime store.tables answer tables ∧
    after = { store with tables := tables }
  | .upsertInstance workerId instanceName, .ok id, after =>
    (store.instanceId workerId instanceName = some id ∧ after = store) ∨
      (store.instanceId workerId instanceName = none ∧ id ∉ store.instances.map (·.id) ∧
        after = store.addInstance workerId instanceName id)
  | _, _, after => after = store

abbrev HubStep := Taken HubAnswer HubStore HubOperation

/-! ## A sample control plane -/

/-- A platform that tells the two texts of the sample job apart by their lengths,
with their digests. -/
def mirrorRuntime : Runtime where
  crypto := { sampleCrypto with
    sha256 := fun bytes =>
      if bytes.length = 668 then "95baea67410c285cf8fc409f943e0aa2acd165cea14c8501fddc11c320555e03"
      else "3bdb2528c5d9b91e00e55d8016eef219ac733e5a7d806119f0d4f11f086f7438" }
  parseJson text :=
    if text.length = 668 then .ok (observedJob true).toValue
    else if text.length = 669 then .ok (observedJob false).toValue
    else .error (js "Unexpected end of JSON input")
  jobSchemaMessage _ := js "Invalid input"

def sampleHub : HubConfig where
  runtime := mirrorRuntime
  service := sampleConfig false
  versionAllowed _ := true

def sampleWorker : AuthenticatedWorker where
  workerId := js "w1"
  hostName := js "HOST1"

/-- The transactions at a time. -/
def jobAnswerAt (now : Int) (tables : JobTables) : (call : JobCall) → JobAnswer call × JobTables
  | .recordJobVersion input =>
    match tables.recordJobVersion mirrorRuntime input now with
    | .error text => (.error text, tables)
    | .ok (after, result) => (.ok result, after)
  | .markJobDeleted instanceId jobUuid => (.ok (), tables.markJobDeleted instanceId jobUuid now)
  | .markJobsMissingFromSnapshot instanceId seen => (.ok (), tables.markJobsMissingFromSnapshot instanceId seen now)

theorem jobAnswerAt_does (now : Int) (tables : JobTables) (call : JobCall) :
    call.Does mirrorRuntime tables (jobAnswerAt now tables call).1 (jobAnswerAt now tables call).2 := by
  cases call with
  | recordJobVersion input =>
    cases recorded : tables.recordJobVersion mirrorRuntime input now with
    | error text =>
      simp only [jobAnswerAt, recorded]
      rfl
    | ok after =>
      simp only [jobAnswerAt, recorded]
      exact ⟨now, recorded⟩
  | markJobDeleted instanceId jobUuid => exact ⟨now, rfl⟩
  | markJobsMissingFromSnapshot instanceId seen => exact ⟨now, rfl⟩

/-- A control plane on which everything works, where the next message is this one.
The first instance gets the id `i1`, and a second is not inserted. -/
def hubAnswer (message : HubMessage) (store : HubStore) : (call : HubCall) → HubAnswer call × HubStore
  | .receive => (message, store)
  | .command statement =>
    let answered := answerAt 1000 store.commands statement
    (answered.1, { store with commands := answered.2 })
  | .job statement =>
    let answered := jobAnswerAt 1000 store.tables statement
    (answered.1, { store with tables := answered.2 })
  | .readClock => ((1000 : Int), store)
  | .recordWorkerHello _ _ _ _ => (.ok { hostName := js "HOST1", capabilities := [] }, store)
  | .recordCredentialKey _ _ => (.ok false, store)
  | .upsertInstance workerId instanceName =>
    match store.instanceId workerId instanceName with
    | some id => (.ok id, store)
    | none =>
      if js "i1" ∈ store.instances.map (·.id) then (.error (js "duplicate key"), store)
      else (.ok (js "i1"), store.addInstance workerId instanceName (js "i1"))
  | .insertSyncState _ => (.ok (), store)
  | .touchWorker _ => (.ok (), store)
  | .register _ => (false, store)
  | .unregister _ => ((), store)
  | .sendHelloAck _ _ => ((), store)
  | .pushInstanceConfigs _ => (.ok (), store)
  | .markWorkerDisconnected _ => (.ok (), store)

theorem hubAnswer_does (message : HubMessage) (store : HubStore) (call : HubCall) :
    call.Does mirrorRuntime store (hubAnswer message store call).1 (hubAnswer message store call).2 := by
  cases call with
  | command statement => exact ⟨_, answerAt_does 1000 store.commands statement, rfl⟩
  | job statement => exact ⟨_, jobAnswerAt_does 1000 store.tables statement, rfl⟩
  | upsertInstance workerId instanceName =>
    cases found : store.instanceId workerId instanceName with
    | some id =>
      simp only [hubAnswer, found]
      exact .inl ⟨found, rfl⟩
    | none =>
      by_cases used : js "i1" ∈ store.instances.map (·.id)
      · simp only [hubAnswer, found, used, ↓reduceIte]
        rfl
      · simp only [hubAnswer, found, used, ↓reduceIte]
        exact .inr ⟨found, used, rfl⟩
  | _ => rfl

/-- Start an operation, or let one take so many steps, the first of which may
receive a message. -/
inductive HubWork where
  | begin (operation : HubOperation)
  | steps (index count : Nat) (message : HubMessage)

def HubWork.moves : HubWork → List (Move HubAnswer HubStore HubOperation)
  | .begin operation => [.begin operation]
  | .steps index count message =>
    List.replicate count (.step index fun store call => some (hubAnswer message store call))

def afterHubWork (work : List HubWork) : Pool HubAnswer Unit Unit HubStore HubOperation × List HubStep :=
  (work.flatMap HubWork.moves).foldl (Pool.play (HubOperation.body sampleHub)) (⟨.empty, []⟩, [])

theorem reaches_afterHubWork (work : List HubWork) :
    Reaches (HubCall.Does mirrorRuntime) (HubOperation.body sampleHub) .empty (afterHubWork work).1
      (afterHubWork work).2 := by
  refine reaches_play _ fun index world member store call answer after answered => ?_
  obtain ⟨part, -, inside⟩ := List.mem_flatMap.mp member
  cases part with
  | begin operation => simp [HubWork.moves] at inside
  | steps other count message =>
    obtain ⟨-, same⟩ := List.mem_replicate.mp inside
    cases same
    have does := hubAnswer_does message store call
    rw [Option.some.inj answered] at does
    exact does

/-- A session of the sample worker. -/
def sampleSession (number : Nat) : HubOperation := .session number sampleWorker (js "10.0.0.5") 10

def sampleHello : HubMessage := .hello {
  workerVersion := js "0.1.0"
  maxCapability := js "full"
  instances := [js "SQL01"]
  credentialPublicKey := [] }

/-- The sample job, switched on or off. -/
def sampleDelta (enabled : Bool) (appliedCommandId : JsString) : HubMessage := .definition {
  instanceName := js "SQL01"
  job := some {
    jobUuid := js "j1"
    canonicalJson := observedText enabled
    definitionHash := []
    dateModified := { seconds := 1700000000, nanos := 0 } }
  deleted := false
  appliedCommandId := appliedCommandId }

end RemoteSqlAgent
