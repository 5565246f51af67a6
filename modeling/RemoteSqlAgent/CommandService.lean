import RemoteSqlAgent.CommandHandler
import RemoteSqlAgent.Interleaving

/-! The command pipeline of the control plane. A command is persisted before it
is sent, may wait for a second person, and is settled by its result, by a
rejection or by its time to live. Every operation reads the command first and
then writes it by its id. -/
namespace RemoteSqlAgent
open Js CallProgram

/-! ## Commands -/

inductive CommandKind where
  | toggleJob
  | runJob
  | stopJob
  | upsertJob
  | deleteJob
  | upsertSchedule
  | deleteSchedule
  | upsertOperator
  | deleteOperator
  | setJobWriteAllowed
  deriving DecidableEq

def CommandKind.text : CommandKind → JsString
  | .toggleJob => js "toggleJob"
  | .runJob => js "runJob"
  | .stopJob => js "stopJob"
  | .upsertJob => js "upsertJob"
  | .deleteJob => js "deleteJob"
  | .upsertSchedule => js "upsertSchedule"
  | .deleteSchedule => js "deleteSchedule"
  | .upsertOperator => js "upsertOperator"
  | .deleteOperator => js "deleteOperator"
  | .setJobWriteAllowed => js "setJobWriteAllowed"

/-- The capability a command needs, its entry in `COMMAND_CAPABILITY`. -/
def CommandKind.capability : CommandKind → Capability
  | .toggleJob => .jobToggle
  | .runJob | .stopJob => .jobRun
  | .upsertJob | .deleteJob | .setJobWriteAllowed => .jobWrite
  | .upsertSchedule | .deleteSchedule => .scheduleWrite
  | .upsertOperator | .deleteOperator => .operatorWrite

theorem capability_eq_lookup (kind : CommandKind) :
    property kind.text COMMAND_CAPABILITY = some kind.capability := by
  cases kind <;> decide

/-- Commands requiring a second approver by default. -/
def APPROVAL_REQUIRED_BY_DEFAULT : List CommandKind := [.upsertJob, .deleteJob, .upsertOperator, .deleteOperator]

inductive Role where
  | viewer
  | operator
  | editor
  | admin
  deriving DecidableEq

inductive CommandState where
  | pending_approval
  | approved
  | dispatched
  | succeeded
  | failed
  | expired
  | rejected
  deriving DecidableEq

def CommandState.text : CommandState → JsString
  | .pending_approval => js "pending_approval"
  | .approved => js "approved"
  | .dispatched => js "dispatched"
  | .succeeded => js "succeeded"
  | .failed => js "failed"
  | .expired => js "expired"
  | .rejected => js "rejected"

def TERMINAL_COMMAND_STATES : List CommandState := [.succeeded, .failed, .expired, .rejected]

abbrev CommandPayloadRecord := List (JsString × JsValue)

/-- A row of `commands`. Its id is the key it is stored under. -/
structure CommandRow where
  type : CommandKind
  instanceId : JsString
  workerId : JsString
  jobUuid : Option JsString
  payload : CommandPayloadRecord
  baseDefinitionHash : Option JsString
  state : CommandState
  issuedBy : Option JsString
  approvedBy : Option JsString
  signature : Option (List UInt8)
  resultCode : Option JsString
  resultDetail : Option JsString
  sqlErrorNumber : Option Int
  issuedAt : Int
  approvedAt : Option Int
  dispatchedAt : Option Int
  completedAt : Option Int
  expiresAt : Option Int

/-- The columns `create` inserts. -/
structure CommandValues where
  type : CommandKind
  instanceId : JsString
  workerId : JsString
  jobUuid : Option JsString
  payload : CommandPayloadRecord
  baseDefinitionHash : Option JsString
  state : CommandState
  issuedBy : JsString
  approvedAt : Option Int
  expiresAt : Int

def CommandValues.row (values : CommandValues) (issuedAt : Int) : CommandRow where
  type := values.type
  instanceId := values.instanceId
  workerId := values.workerId
  jobUuid := values.jobUuid
  payload := values.payload
  baseDefinitionHash := values.baseDefinitionHash
  state := values.state
  issuedBy := some values.issuedBy
  approvedBy := none
  signature := none
  resultCode := none
  resultDetail := none
  sqlErrorNumber := none
  issuedAt := issuedAt
  approvedAt := values.approvedAt
  dispatchedAt := none
  completedAt := none
  expiresAt := some values.expiresAt

/-- The updates of one command, each with the columns it sets. -/
inductive CommandUpdate where
  | approved (approvedBy : JsString) (at_ : Int)
  | rejected (reason : JsString) (at_ : Int)
  | dispatched (signature : List UInt8) (at_ : Int)
  | expired (at_ : Int)
  | result (success : Bool) (errorCode errorDetail : JsString) (sqlErrorNumber : Int) (at_ : Int)

/-- `value || null`. -/
def orNull (text : JsString) : Option JsString := if text = [] then none else some text

/-- The state an update sets. -/
def CommandUpdate.state : CommandUpdate → CommandState
  | .approved .. => .approved
  | .rejected .. => .rejected
  | .dispatched .. => .dispatched
  | .expired .. => .expired
  | .result success .. => if success then .succeeded else .failed

def CommandUpdate.apply (update : CommandUpdate) (row : CommandRow) : CommandRow :=
  match update with
  | .approved approvedBy at_ =>
    { row with state := update.state, approvedBy := some approvedBy, approvedAt := some at_ }
  | .rejected reason at_ =>
    { row with state := update.state, resultDetail := some reason, completedAt := some at_ }
  | .dispatched signature at_ =>
    { row with state := update.state, dispatchedAt := some at_, signature := some signature }
  | .expired at_ =>
    { row with state := update.state, resultCode := some (js "Expired"), completedAt := some at_ }
  | .result success errorCode errorDetail sqlErrorNumber at_ =>
    { row with
      state := update.state
      resultCode := some (if success then js "Ok" else errorCode)
      resultDetail := orNull errorDetail
      sqlErrorNumber := if sqlErrorNumber = 0 then none else some sqlErrorNumber
      completedAt := some at_ }

@[simp] theorem CommandUpdate.apply_workerId (update : CommandUpdate) (row : CommandRow) :
    (update.apply row).workerId = row.workerId := by
  cases update <;> rfl

/-- The states `expireStale` expires. -/
def STALE_COMMAND_STATES : List CommandState := [.pending_approval, .approved, .dispatched]

def CommandRow.expire (row : CommandRow) (completedAt : Int) : CommandRow := { row with
  state := .expired
  resultCode := some (js "Expired")
  resultDetail := some (js "The command expired before it was applied (worker offline or not approved in time).")
  completedAt := some completedAt }

/-- What `expireStale` expires at a time. -/
def CommandRow.isStale (row : CommandRow) (now : Int) : Prop :=
  row.state ∈ STALE_COMMAND_STATES ∧ ∃ expiresAt, row.expiresAt = some expiresAt ∧ expiresAt < now

instance (row : CommandRow) (now : Int) : Decidable (row.isStale now) :=
  match found : row.expiresAt with
  | none => isFalse fun stale => by
    obtain ⟨-, expiresAt, some, -⟩ := stale
    rw [found] at some
    cases some
  | some expiresAt =>
    if holds : row.state ∈ STALE_COMMAND_STATES ∧ expiresAt < now then
      isTrue ⟨holds.1, expiresAt, found, holds.2⟩
    else isFalse fun stale => by
      obtain ⟨state, other, same, before⟩ := stale
      rw [found, Option.some.injEq] at same
      exact holds ⟨state, same ▸ before⟩

/-! ## Statements -/

structure GrantRow where
  workerId : JsString
  hostName : JsString
  granted : List JsString
  ceiling : Option JsString

structure AuditEntry where
  actorType : JsString
  actor : JsString
  action : JsString
  target : Option JsString
  remoteAddress : Option JsString

/-- What the service asks of the database, the clock and the live sessions. -/
inductive CommandCall where
  | selectGrant (instanceId : JsString)
  | insertCommand (values : CommandValues)
  | writeAudit (entry : AuditEntry)
  | selectCommand (commandId : JsString)
  /-- With the name of its instance. -/
  | selectDispatch (commandId : JsString)
  | selectForWorker (commandId workerId : JsString)
  | selectApproved (workerId : JsString)
  | selectUsername (userId : JsString)
  | updateCommand (commandId : JsString) (update : CommandUpdate)
  | updateForWorker (commandId workerId : JsString) (update : CommandUpdate)
  | expireStale (completedAt now : Int)
  | readClock
  /-- Whether the registry has a live session of the worker. -/
  | isLive (workerId : JsString)
  | send (workerId : JsString) (command : Command)

def CommandAnswer : CommandCall → Type
  | .selectGrant _ => Except JsString (Option GrantRow)
  | .insertCommand _ => Except JsString (JsString × CommandState)
  | .writeAudit _ => Except JsString Unit
  | .selectCommand _ => Except JsString (Option CommandRow)
  | .selectDispatch _ => Except JsString (Option (CommandRow × JsString))
  | .selectForWorker _ _ => Except JsString (Option CommandRow)
  | .selectApproved _ => Except JsString (List JsString)
  | .selectUsername _ => Except JsString (Option JsString)
  | .updateCommand _ _ => Except JsString Unit
  | .updateForWorker _ _ _ => Except JsString Unit
  | .expireStale _ _ => Except JsString (List JsString)
  | .readClock => Int
  | .isLive _ => Bool
  | .send _ _ => Unit

inductive ServiceError where
  | command (statusCode : Nat) (code message : JsString)
  | signing (error : SigningError)
  | database (message : JsString)
  | typeError (message : JsString)

abbrev Service (α : Type) := CallProgram CommandCall CommandAnswer ServiceError α

/-- A statement that fails throws. -/
def orFail {α : Type} : Except JsString α → Service α
  | .error message => .throw (.database message)
  | .ok value => .done value

/-- The settings of the service, and the signing key. -/
structure ServiceConfig where
  crypto : Crypto
  /-- `createSign(algorithm)` over the bytes, with the private key. -/
  sign : List UInt8 → List UInt8
  requireApprovalForJobWrite : Bool
  approvalExemptRoles : List Role
  commandTtlSeconds : Int

/-! ## Building the message -/

/-- `Number(payload.operatorId ?? 0)`, of an id that is a number. -/
def operatorIdOf (payload : CommandPayloadRecord) : Int :=
  match property (js "operatorId") payload with
  | some (.number id) => id
  | _ => 0

def payloadString (payload : CommandPayloadRecord) (key : String) : JsString :=
  match property (js key) payload with
  | some (.string text) => text
  | _ => []

def payloadTrue (payload : CommandPayloadRecord) (key : String) : Bool :=
  match property (js key) payload with
  | some (.bool true) => true
  | _ => false

def buildProtoPayload (kind : CommandKind) (payload : CommandPayloadRecord) : CommandPayload :=
  let str := payloadString payload
  match kind with
  | .toggleJob => .toggleJob {
      jobUuid := str "jobUuid", enabled := payloadTrue payload "enabled"
      baseDefinitionHash := str "baseDefinitionHash" }
  | .runJob => .runJob { jobUuid := str "jobUuid", stepName := str "stepName" }
  | .stopJob => .stopJob { jobUuid := str "jobUuid" }
  | .upsertJob => .upsertJob {
      jobUuid := str "jobUuid", canonicalJson := str "canonicalJson"
      baseDefinitionHash := str "baseDefinitionHash", allowOverwrite := payloadTrue payload "allowOverwrite" }
  | .deleteJob => .deleteJob { jobUuid := str "jobUuid", baseDefinitionHash := str "baseDefinitionHash" }
  | .upsertSchedule => .upsertSchedule {
      scheduleName := str "scheduleName", canonicalJson := str "canonicalJson"
      baseDefinitionHash := str "baseDefinitionHash" }
  | .deleteSchedule => .deleteSchedule {
      scheduleName := str "scheduleName", baseDefinitionHash := str "baseDefinitionHash" }
  | .upsertOperator => .upsertOperator {
      operatorId := operatorIdOf payload, canonicalJson := str "canonicalJson"
      baseDefinitionHash := str "baseDefinitionHash" }
  | .deleteOperator => .deleteOperator {
      operatorId := operatorIdOf payload, baseDefinitionHash := str "baseDefinitionHash" }
  | .setJobWriteAllowed => .setJobWriteAllowed {
      jobUuid := str "jobUuid", jobName := str "jobName", allowed := payloadTrue payload "allowed" }

/-- Map a stored payload onto the message, still unsigned. -/
def buildProtoCommand (id : JsString) (kind : CommandKind) (instanceName : JsString)
    (payload : CommandPayloadRecord) (now : Int) : Command where
  id := id
  issuedAt := some (toTimestamp now)
  instanceName := instanceName
  signature := []
  payload := some (buildProtoPayload kind payload)

def signCommand (config : ServiceConfig) (command : Command) : Except SigningError (List UInt8) :=
  (commandSigningBytes config.crypto command.toObject).map config.sign

/-! ## Operations -/

structure CreateCommandInput where
  instanceId : JsString
  kind : CommandKind
  jobUuid : Option JsString
  payload : CommandPayloadRecord
  baseDefinitionHash : Option JsString
  issuedBy : JsString
  issuedByUsername : JsString
  issuedByRole : Role
  remoteAddress : Option JsString

structure CreateCommandResult where
  id : JsString
  state : CommandState
  requiresApproval : Bool

structure ResultParams where
  commandId : JsString
  workerId : JsString
  success : Bool
  errorCode : JsString
  errorDetail : JsString
  sqlErrorNumber : Int
  hostName : JsString

/-- What the caller of `recordResult` is told of the command. -/
structure SettledCommand where
  type : CommandKind
  instanceId : JsString
  jobUuid : Option JsString
  issuedByUsername : Option JsString

structure EffectiveCapabilities where
  workerId : JsString
  hostName : JsString
  capabilities : List Capability

def notFound (message : String) : ServiceError := .command 404 (js "NotFound") (js message)

def notPending (state : CommandState) : ServiceError :=
  .command 409 (js "NotPending") (js "This command is already " ++ state.text ++ js ".")

def effectiveCapabilitiesFor (instanceId : JsString) : Service EffectiveCapabilities := do
  match ← CallProgram.call (.selectGrant instanceId) orFail with
  | none => .throw (notFound "No such instance.")
  | some row =>
    match capabilitiesUnder row.granted (row.ceiling.getD []) with
    | .error message => .throw (.typeError message)
    | .ok capabilities => return { workerId := row.workerId, hostName := row.hostName, capabilities := capabilities }

def capabilityDenied (hostName : JsString) (required : Capability) (capabilities : List Capability) : ServiceError :=
  .command 403 (js "CapabilityDenied") (js "Worker " ++ hostName ++ js " cannot " ++ required.text ++
    js ". Its effective capabilities are: " ++ (js ", ").intercalate (capabilities.map Capability.text) ++
    js ". Grant the capability in Administration, and check the worker's own maxCapability setting.")

/-- `command.expiresAt && command.expiresAt.getTime() < Date.now()`. -/
def hasExpired (expiresAt : Option Int) : Service Bool :=
  match expiresAt with
  | none => return false
  | some expiresAt => CallProgram.call .readClock fun now : Int => .done (decide (expiresAt < now))

def markExpired (commandId : JsString) : Service Unit :=
  CallProgram.call .readClock fun now : Int => CallProgram.call (.updateCommand commandId (.expired now)) orFail

section
variable (config : ServiceConfig)

/-- Whether a command needs a second person to approve it. -/
def requiresApproval (kind : CommandKind) (role : Role) : Bool :=
  config.requireApprovalForJobWrite && kind ∈ APPROVAL_REQUIRED_BY_DEFAULT && role ∉ config.approvalExemptRoles

/-- Build, sign and send a command that was found approved. -/
def sendLive (commandId : JsString) (row : CommandRow) (instanceName : JsString) : Service Bool :=
  CallProgram.call (.isLive row.workerId) fun live : Bool =>
    if live then
      CallProgram.call .readClock fun now : Int =>
        let command := buildProtoCommand commandId row.type instanceName row.payload now
        match signCommand config command with
        | .error error => .throw (.signing error)
        | .ok signature =>
          CallProgram.call (.send row.workerId { command with signature := signature }) fun _ : Unit =>
            CallProgram.call .readClock fun at_ : Int => do
              CallProgram.call (.updateCommand commandId (.dispatched signature at_)) orFail
              return true
    else .done false

/-- Sign and stream a command to its worker. If the worker is offline, the
command stays approved. -/
def dispatch (commandId : JsString) : Service Bool := do
  match ← CallProgram.call (.selectDispatch commandId) orFail with
  | none => return false
  | some (row, instanceName) =>
    if row.state ≠ .approved then return false
    else if ← hasExpired row.expiresAt then
      markExpired commandId
      return false
    else sendLive config commandId row instanceName

/-- The columns of a new command. -/
def newCommand (input : CreateCommandInput) (workerId : JsString) (approvedAt expiryBase : Int) : CommandValues :=
  let required := requiresApproval config input.kind input.issuedByRole
  { type := input.kind
    instanceId := input.instanceId
    workerId := workerId
    jobUuid := input.jobUuid
    payload := input.payload
    baseDefinitionHash := input.baseDefinitionHash
    state := if required then .pending_approval else .approved
    issuedBy := input.issuedBy
    approvedAt := if required then none else some approvedAt
    expiresAt := expiryBase + config.commandTtlSeconds * 1000 }

def create (input : CreateCommandInput) : Service CreateCommandResult := do
  let effective ← effectiveCapabilitiesFor input.instanceId
  if input.kind.capability ∉ effective.capabilities then
    .throw (capabilityDenied effective.hostName input.kind.capability effective.capabilities)
  else
    CallProgram.call .readClock fun approvedAt : Int => CallProgram.call .readClock fun expiryBase : Int => do
      let (id, state) ← CallProgram.call
        (.insertCommand (newCommand config input effective.workerId approvedAt expiryBase)) orFail
      CallProgram.call (.writeAudit {
        actorType := js "user"
        actor := input.issuedByUsername
        action := js "command.issued"
        target := some id
        remoteAddress := input.remoteAddress }) orFail
      if requiresApproval config input.kind input.issuedByRole then
        return { id := id, state := state, requiresApproval := true }
      else
        let _ ← dispatch config id
        return { id := id, state := state, requiresApproval := false }

/-- Approve a pending command. The approver must not be its issuer. -/
def approve (commandId approverId approverUsername : JsString) (remoteAddress : Option JsString) : Service Unit := do
  match ← CallProgram.call (.selectCommand commandId) orFail with
  | none => .throw (notFound "No such command.")
  | some command =>
    if command.state ≠ .pending_approval then .throw (notPending command.state)
    else if command.issuedBy = some approverId then
      .throw (.command 403 (js "SelfApproval")
        (js "A command must be approved by someone other than the person who issued it."))
    else if ← hasExpired command.expiresAt then
      markExpired commandId
      .throw (.command 409 (js "Expired") (js "This command expired before it was approved."))
    else CallProgram.call .readClock fun at_ : Int => do
      CallProgram.call (.updateCommand commandId (.approved approverId at_)) orFail
      CallProgram.call (.writeAudit {
        actorType := js "user"
        actor := approverUsername
        action := js "command.approved"
        target := some commandId
        remoteAddress := remoteAddress }) orFail
      let _ ← dispatch config commandId
      return ()

def reject (commandId rejectorUsername reason : JsString) (remoteAddress : Option JsString) : Service Unit := do
  match ← CallProgram.call (.selectCommand commandId) orFail with
  | none => .throw (notFound "No such command.")
  | some command =>
    if command.state ≠ .pending_approval then .throw (notPending command.state)
    else CallProgram.call .readClock fun at_ : Int => do
      CallProgram.call (.updateCommand commandId (.rejected reason at_)) orFail
      CallProgram.call (.writeAudit {
        actorType := js "user"
        actor := rejectorUsername
        action := js "command.rejected"
        target := some commandId
        remoteAddress := remoteAddress }) orFail

/-- Dispatch each command of a list, and count those that were sent. -/
def dispatchEach : List JsString → Service Nat
  | [] => return 0
  | id :: rest => do
    let sent ← dispatch config id
    let others ← dispatchEach rest
    return (if sent then 1 else 0) + others

/-- Dispatch everything queued for a worker that has just connected. -/
def dispatchPendingFor (workerId : JsString) : Service Nat := do
  dispatchEach config (← CallProgram.call (.selectApproved workerId) orFail)

end

/-- Record the outcome that a worker reports, of a command of that worker. -/
def recordResult (params : ResultParams) : Service (Option SettledCommand) := do
  match ← CallProgram.call (.selectForWorker params.commandId params.workerId) orFail with
  | none => return none
  | some command => CallProgram.call .readClock fun at_ : Int => do
    CallProgram.call (.updateForWorker params.commandId params.workerId
      (.result params.success params.errorCode params.errorDetail params.sqlErrorNumber at_)) orFail
    CallProgram.call (.writeAudit {
      actorType := js "worker"
      actor := params.hostName
      action := if params.success then js "command.result" else js "command.result.failed"
      target := some params.commandId
      remoteAddress := none }) orFail
    match command.issuedBy with
    | none => return some ⟨command.type, command.instanceId, command.jobUuid, none⟩
    | some issuedBy =>
      let username ← CallProgram.call (.selectUsername issuedBy) orFail
      return some ⟨command.type, command.instanceId, command.jobUuid, username⟩

/-- Expire commands that were never applied. -/
def expireStale : Service Nat :=
  CallProgram.call .readClock fun completedAt : Int => CallProgram.call .readClock fun now : Int => do
    let expired ← CallProgram.call (.expireStale completedAt now) orFail
    return expired.length

/-- The operations on commands that requests, sessions and timers start. -/
inductive CommandOperation where
  | create (input : CreateCommandInput)
  | approve (commandId approverId approverUsername : JsString) (remoteAddress : Option JsString)
  | reject (commandId rejectorUsername reason : JsString) (remoteAddress : Option JsString)
  | dispatch (commandId : JsString)
  | dispatchPendingFor (workerId : JsString)
  | recordResult (params : ResultParams)
  | expireStale
  | markExpired (commandId : JsString)

/-- What an operation runs. What it returns goes to its caller. -/
def CommandOperation.body (config : ServiceConfig) : CommandOperation → Service Unit
  | .create input => do let _ ← RemoteSqlAgent.create config input
  | .approve commandId approverId approverUsername remoteAddress =>
    RemoteSqlAgent.approve config commandId approverId approverUsername remoteAddress
  | .reject commandId rejectorUsername reason remoteAddress =>
    RemoteSqlAgent.reject commandId rejectorUsername reason remoteAddress
  | .dispatch commandId => do let _ ← RemoteSqlAgent.dispatch config commandId
  | .dispatchPendingFor workerId => do let _ ← RemoteSqlAgent.dispatchPendingFor config workerId
  | .recordResult params => do let _ ← RemoteSqlAgent.recordResult params
  | .expireStale => do let _ ← RemoteSqlAgent.expireStale
  | .markExpired commandId => RemoteSqlAgent.markExpired commandId

/-! ## The database -/

/-- The table of commands, and two logs: what was inserted, and what was sent to
whom. -/
structure CommandStore where
  commands : JsString → Option CommandRow
  issued : List (JsString × CommandValues)
  sent : List (JsString × Command)
  logged : ∀ id, (commands id).isSome = true → id ∈ issued.map Prod.fst

namespace CommandStore

def empty : CommandStore where
  commands _ := none
  issued := []
  sent := []
  logged id found := by cases found

/-- Change rows where they stand. -/
def updateRows (store : CommandStore) (change : JsString → CommandRow → CommandRow) : CommandStore where
  commands id := (store.commands id).map (change id)
  issued := store.issued
  sent := store.sent
  logged id found := store.logged id (by simpa using found)

theorem updateRows_commands (store : CommandStore) (change : JsString → CommandRow → CommandRow) (id : JsString) :
    (store.updateRows change).commands id = (store.commands id).map (change id) := rfl

def insert (store : CommandStore) (id : JsString) (values : CommandValues) (issuedAt : Int) : CommandStore where
  commands := Function.update store.commands id (some (values.row issuedAt))
  issued := store.issued ++ [(id, values)]
  sent := store.sent
  logged other found := by
    rw [List.map_append, List.mem_append]
    by_cases same : other = id
    · exact .inr (by simp [same])
    · rw [Function.update_of_ne same] at found
      exact .inl (store.logged other found)

/-- The ids of the rows that pass a test. -/
def idsWhere (store : CommandStore) (test : CommandRow → Bool) : List JsString :=
  (store.issued.map Prod.fst).dedup.filter fun id => (store.commands id).any test

end CommandStore

/-- What a call can answer and do. A statement that fails does nothing; sessions
come and go. -/
def CommandCall.Does (store : CommandStore) : (call : CommandCall) → CommandAnswer call → CommandStore → Prop
  | .insertCommand values, .ok (id, state), after => ∃ issuedAt,
    store.commands id = none ∧ state = values.state ∧ after = store.insert id values issuedAt
  | .selectCommand commandId, .ok found, after => after = store ∧ found = store.commands commandId
  | .selectDispatch commandId, .ok found, after =>
    after = store ∧ found.map Prod.fst = store.commands commandId
  | .selectForWorker commandId workerId, .ok found, after =>
    after = store ∧ found = (store.commands commandId).filter fun row => row.workerId = workerId
  | .selectApproved workerId, .ok ids, after => after = store ∧
    ids.Perm (store.idsWhere fun row => row.workerId = workerId ∧ row.state = .approved) ∧
    ids.Pairwise fun first second => ∀ row other, store.commands first = some row →
      store.commands second = some other → row.issuedAt ≤ other.issuedAt
  | .updateCommand commandId update, .ok _, after =>
    after = store.updateRows fun id row => if id = commandId then update.apply row else row
  | .updateForWorker commandId workerId update, .ok _, after =>
    after = store.updateRows fun id row =>
      if id = commandId ∧ row.workerId = workerId then update.apply row else row
  | .expireStale completedAt now, .ok ids, after =>
    after = store.updateRows (fun _ row => if row.isStale now then row.expire completedAt else row) ∧
      ids.Perm (store.idsWhere fun row => row.isStale now)
  | .send workerId command, _, after => after = { store with sent := store.sent ++ [(workerId, command)] }
  | _, _, after => after = store

/-! ## A sample service -/

def sampleConfig (requireApproval : Bool) : ServiceConfig where
  crypto := sampleCrypto
  sign _ := [1]
  requireApprovalForJobWrite := requireApproval
  approvalExemptRoles := [.admin]
  commandTtlSeconds := 900

/-- One worker with all capabilities, always connected. The first command gets
the id `c1`, and a second is not inserted. -/
def answerAt (now : Int) (store : CommandStore) : (call : CommandCall) → CommandAnswer call × CommandStore
  | .selectGrant _ => (.ok (some {
      workerId := js "w1", hostName := js "HOST1", granted := CAPABILITIES.map Capability.text
      ceiling := some (js "full") }), store)
  | .insertCommand values =>
    if (store.commands (js "c1")).isSome then (.error (js "duplicate key"), store)
    else (.ok (js "c1", values.state), store.insert (js "c1") values now)
  | .writeAudit _ => (.ok (), store)
  | .selectCommand commandId => (.ok (store.commands commandId), store)
  | .selectDispatch commandId => (.ok ((store.commands commandId).map fun row => (row, js "SQL01")), store)
  | .selectForWorker commandId workerId =>
    (.ok ((store.commands commandId).filter fun row => row.workerId = workerId), store)
  | .selectApproved _ => (.error (js "timeout"), store)
  | .selectUsername _ => (.ok none, store)
  | .updateCommand commandId update =>
    (.ok (), store.updateRows fun id row => if id = commandId then update.apply row else row)
  | .updateForWorker commandId workerId update =>
    (.ok (), store.updateRows fun id row => if id = commandId ∧ row.workerId = workerId then update.apply row else row)
  | .expireStale completedAt now => (.ok (store.idsWhere fun row => row.isStale now),
      store.updateRows fun _ row => if row.isStale now then row.expire completedAt else row)
  | .readClock => (now, store)
  | .isLive _ => (true, store)
  | .send workerId command => ((), { store with sent := store.sent ++ [(workerId, command)] })

theorem answerAt_does (now : Int) (store : CommandStore) (call : CommandCall) :
    call.Does store (answerAt now store call).1 (answerAt now store call).2 := by
  cases call with
  | insertCommand values =>
    unfold answerAt
    split
    · rfl
    · rename_i absent
      exact ⟨now, Option.not_isSome_iff_eq_none.mp absent, rfl, rfl⟩
  | selectDispatch commandId =>
    refine ⟨rfl, ?_⟩
    cases store.commands commandId <;> rfl
  | expireStale completedAt now => exact ⟨rfl, List.Perm.refl _⟩
  | selectCommand commandId | selectForWorker commandId workerId => exact ⟨rfl, rfl⟩
  | _ => rfl

def sampleCreate (kind : CommandKind) : CreateCommandInput where
  instanceId := js "i1"
  kind := kind
  jobUuid := some (js "j1")
  payload := [(js "jobUuid", .string (js "j1")), (js "enabled", .bool true)]
  baseDefinitionHash := none
  issuedBy := js "u1"
  issuedByUsername := js "olivia"
  issuedByRole := .editor
  remoteAddress := none

/-- Start an operation, or let one take so many steps at a time. -/
inductive Work where
  | begin (operation : CommandOperation)
  | steps (index count : Nat) (now : Int)

def Work.moves : Work → List (Move CommandAnswer CommandStore CommandOperation)
  | .begin operation => [.begin operation]
  | .steps index count now => List.replicate count (.step index fun store call => some (answerAt now store call))

def afterWork (config : ServiceConfig) (work : List Work) :
    Pool CommandAnswer ServiceError Unit CommandStore CommandOperation ×
      List (Taken CommandAnswer CommandStore CommandOperation) :=
  (work.flatMap Work.moves).foldl (Pool.play (CommandOperation.body config)) (⟨.empty, []⟩, [])

theorem reaches_afterWork (config : ServiceConfig) (work : List Work) :
    Reaches CommandCall.Does (CommandOperation.body config) .empty (afterWork config work).1
      (afterWork config work).2 := by
  refine reaches_play _ fun index world member store call answer after answered => ?_
  obtain ⟨part, -, inside⟩ := List.mem_flatMap.mp member
  cases part with
  | begin operation => simp [Work.moves] at inside
  | steps other count now =>
    obtain ⟨-, same⟩ := List.mem_replicate.mp inside
    cases same
    have does := answerAt_does now store call
    rw [Option.some.inj answered] at does
    exact does

end RemoteSqlAgent
