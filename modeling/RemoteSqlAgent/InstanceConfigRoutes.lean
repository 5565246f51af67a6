import RemoteSqlAgent.InstanceConfigs
import RemoteSqlAgent.AuditExport

/-! The routes that save and remove the configuration of an instance. Each runs one statement after
another, outside a transaction, and the database may refuse any of them. -/
namespace RemoteSqlAgent
open Js CallProgram ConfigStore

/-! ## The tables -/

/-- A hexadecimal digit in lower case. -/
def uuidUnit (unit : CodeUnit) : CodeUnit :=
  if 0x41 ≤ unit.val ∧ unit.val ≤ 0x46 then Fin.ofNat _ (unit.val + 0x20) else unit

/-- What a `uuid` column holds of a uuid, however it was spelled. -/
def storedUuid (uuid : JsString) : JsString := uuid.map uuidUnit

@[simp] theorem uuidUnit_uuidUnit (unit : CodeUnit) : uuidUnit (uuidUnit unit) = uuidUnit unit := by
  by_cases capital : 0x41 ≤ unit.val ∧ unit.val ≤ 0x46
  · have value : (Fin.ofNat 0x10000 (unit.val + 0x20)).val = unit.val + 0x20 := Nat.mod_eq_of_lt (by omega)
    have small : uuidUnit unit = Fin.ofNat _ (unit.val + 0x20) := if_pos capital
    rw [small, uuidUnit, value, if_neg (by omega)]
  · have same : uuidUnit unit = unit := if_neg capital
    rw [same, same]

@[simp] theorem storedUuid_storedUuid (uuid : JsString) : storedUuid (storedUuid uuid) = storedUuid uuid := by
  simp [storedUuid]

/-- The store with the rows that `instances` has. Ids are a primary key, and a row names its worker
as a `uuid` column does. -/
@[ext] structure EstateStore extends ConfigStore where
  hasInstance : JsString × JsString → Bool
  unmarked : ∀ key, hasInstance key = false → detachedAt key = none
  primary : (configs.rows.map (·.id)).Nodup
  stored : ∀ row ∈ configs, storedUuid row.workerId = row.workerId

/-- The statement casts the id of the worker. -/
def ConfigStore.UpsertInstanceConfigInput.cast (input : UpsertInstanceConfigInput) : UpsertInstanceConfigInput :=
  { input with workerId := storedUuid input.workerId }

/-- The key of the row it writes. -/
def ConfigStore.UpsertInstanceConfigInput.key (input : UpsertInstanceConfigInput) : JsString × JsString :=
  (storedUuid input.workerId, input.instanceName)

namespace EstateStore

/-- There is the row already, or the id for a new one is free. -/
def Fits (store : EstateStore) (input : UpsertInstanceConfigInput) (id : JsString) : Prop :=
  store.configs.Holds input.key ∨ id ∉ store.configs.rows.map (·.id)

instance (store : EstateStore) (input : UpsertInstanceConfigInput) (id : JsString) : Decidable (store.Fits input id) :=
  inferInstanceAs (Decidable (_ ∨ _))

variable (table : CaseTable) (store : EstateStore) (input : UpsertInstanceConfigInput) (now : Int) (id : JsString)

theorem id_updatedConfig (row : InstanceConfigRow) : (updatedConfig table input now row).id = row.id := by
  have kept : (shared table input (credential input now row)).id = row.id := by
    unfold shared credential
    split <;> rfl
  unfold updatedConfig
  split
  · exact kept
  · exact kept

theorem id_newConfig : (newConfig table input now id).id = id := by
  unfold newConfig shared credential
  split <;> rfl

theorem ids_upsertRow : ((store.upsertRow table input now id).configs.rows.map (·.id)) =
    store.configs.rows.map (·.id) ++ if store.configs.Holds (input.workerId, input.instanceName) then [] else [id] := by
  unfold upsertRow
  split
  next free =>
    rw [key_newConfig] at free
    rw [if_neg free]
    simp [id_newConfig]
  next taken =>
    rw [key_newConfig, not_not] at taken
    rw [if_pos taken, List.append_nil]
    change (List.map _ (List.map _ _)) = _
    rw [List.map_map]
    apply List.map_congr_left
    intro row _
    rw [Function.comp_apply]
    split
    · exact id_updatedConfig table input now row
    · rfl

/-! What a statement leaves is such a store again. -/

theorem unmarked_upsertRow (key : JsString × JsString) (missing : store.hasInstance key = false) :
    (store.upsertRow table input.cast now id).detachedAt key = none := by
  rw [detachedAt_upsertRow]
  exact store.unmarked key missing

theorem primary_upsertRow (fits : store.Fits input id) :
    ((store.upsertRow table input.cast now id).configs.rows.map (·.id)).Nodup := by
  rw [ids_upsertRow]
  split
  · rw [List.append_nil]
    exact store.primary
  next free => exact store.primary.append (List.nodup_singleton id) (by simpa using fits.resolve_left free)

theorem stored_upsertRow (row : InstanceConfigRow) (held : row ∈ (store.upsertRow table input.cast now id).configs) :
    storedUuid row.workerId = row.workerId := by
  obtain ⟨saved, rows, savedAs⟩ := mem_upsertRow table store.toConfigStore input.cast now id
  rcases (rows row).mp held with ⟨there, -⟩ | rfl
  · exact store.stored row there
  · rcases savedAs with ⟨rfl, -⟩ | ⟨old, there, isKey, rfl⟩
    · have named : (newConfig table input.cast now id).workerId = storedUuid input.workerId :=
        congrArg Prod.fst (key_newConfig table input.cast now id)
      rw [named, storedUuid_storedUuid]
    · have named : (updatedConfig table input.cast now old).workerId = old.workerId :=
        congrArg Prod.fst (key_updatedConfig table input.cast now old)
      rw [named]
      exact store.stored old there

/-- After `INSERT … ON CONFLICT DO UPDATE`. -/
def upsert (fits : store.Fits input id) : EstateStore where
  toConfigStore := store.upsertRow table input.cast now id
  hasInstance := store.hasInstance
  unmarked := unmarked_upsertRow table store input now id
  primary := primary_upsertRow table store input now id fits
  stored := stored_upsertRow table store input now id

variable (key : JsString × JsString) (mark : Option Int)

/-- Set the mark of an instance, if there is one. -/
def withMark : JsString × JsString → Option Int :=
  if store.hasInstance key then Function.update store.detachedAt key mark else store.detachedAt

theorem unmarked_withMark (other : JsString × JsString) (missing : store.hasInstance other = false) :
    store.withMark key mark other = none := by
  unfold withMark
  split
  next there =>
    rw [Function.update_of_ne]
    · exact store.unmarked other missing
    · rintro rfl
      rw [there] at missing
      cases missing
  next => exact store.unmarked other missing

theorem withMark_of_ne {other : JsString × JsString} (apart : other ≠ key) :
    store.withMark key mark other = store.detachedAt other := by
  unfold withMark
  split
  · exact Function.update_of_ne apart _ _
  · rfl

theorem withMark_none_eq : store.withMark key none = Function.update store.detachedAt key none := by
  unfold withMark
  split
  · rfl
  next missing => exact (Function.update_eq_self_iff.mpr (store.unmarked key (Bool.eq_false_iff.mpr missing)).symm).symm

theorem withMark_none : store.withMark key none = store.detachedAt ↔ store.detachedAt key = none := by
  rw [withMark_none_eq, Function.update_eq_self_iff, eq_comm]

/-- After an update of `instances`. -/
def marked : EstateStore where
  toConfigStore := { store.toConfigStore with detachedAt := store.withMark key mark }
  hasInstance := store.hasInstance
  unmarked := unmarked_withMark store key mark
  primary := store.primary
  stored := store.stored

theorem primary_remove : ((store.configs.remove fun row => row.id = id).rows.map (·.id)).Nodup :=
  store.primary.sublist (List.filter_sublist.map _)

theorem stored_remove (row : InstanceConfigRow) (held : row ∈ store.configs.remove fun row => row.id = id) :
    storedUuid row.workerId = row.workerId := store.stored row (KeyedTable.mem_remove.mp held).1

/-- After a `DELETE` by id. -/
def remove : EstateStore where
  toConfigStore := { store.toConfigStore with configs := store.configs.remove fun row => row.id = id }
  hasInstance := store.hasInstance
  unmarked := store.unmarked
  primary := primary_remove store id
  stored := stored_remove store id

end EstateStore

/-! ## Statements -/

/-- What the routes ask of the database, of the clock and of the registry of live sessions. -/
inductive EstateCall where
  | readClock
  | selectCredentialKey (workerId : JsString)
  /-- `INSERT … ON CONFLICT DO UPDATE … RETURNING id`. -/
  | upsertConfig (input : UpsertInstanceConfigInput) (now : Int)
  | attachInstance (workerId instanceName : JsString)
  | selectConfigs (workerId : JsString)
  /-- `DELETE … RETURNING worker_id, instance_name`. -/
  | deleteConfig (configId : JsString)
  | detachInstance (workerId instanceName : JsString) (detachedAt : Int)
  | writeAudit (entry : AuditExport.AuditEntry)
  | findSession (workerId : JsString)
  | selectConfigSet (workerId : JsString)
  | send (workerId : JsString) (configs : List WorkerInstanceConfig)

/-- A statement that is refused answers nothing. -/
abbrev EstateAnswer : EstateCall → Type
  | .readClock => Int
  | .selectCredentialKey _ => Option (Option WorkerCredentialKey)
  | .upsertConfig _ _ => Option (Option JsString)
  | .attachInstance _ _ => Option Unit
  | .selectConfigs _ => Option (List InstanceConfigView)
  | .deleteConfig _ => Option (Option (JsString × JsString))
  | .detachInstance _ _ _ => Option Unit
  | .writeAudit _ => Option Unit
  | .findSession _ => Bool
  | .selectConfigSet _ => Option (List WorkerInstanceConfig)
  | .send _ _ => Unit

/-- What a route throws. -/
inductive RouteFault where
  | validation
  | config (error : WorkerConfigError)
  | database

abbrev EstateProgram (α : Type) := CallProgram EstateCall EstateAnswer RouteFault α

/-- Throw if the statement was refused. -/
def orRefused {α : Type} : Option α → EstateProgram α
  | some value => .done value
  | none => .throw .database

namespace EstateProgram

/-- Attach the instance of a row that was written, and read the row back. -/
def attachAndRead (input : UpsertInstanceConfigInput) (id : JsString) : EstateProgram InstanceConfigView := do
  CallProgram.call (.attachInstance input.workerId input.instanceName) orRefused
  let configs ← CallProgram.call (.selectConfigs input.workerId) orRefused
  match configs.find? fun config : InstanceConfigView => config.id = id with
  | none => .throw (.config ⟨500, js "Internal", js "Failed to read back the configuration."⟩)
  | some saved => return saved

/-- Write a row that was checked. -/
def writeConfig (input : UpsertInstanceConfigInput) : EstateProgram InstanceConfigView :=
  CallProgram.call .readClock fun now : Int =>
  CallProgram.call (.upsertConfig input now) fun answer : Option (Option JsString) => do
    match ← orRefused answer with
    | none => .throw (.config ⟨500, js "Internal", js "Failed to save the configuration."⟩)
    | some id => attachAndRead input id

def upsertInstanceConfig (input : UpsertInstanceConfigInput) : EstateProgram InstanceConfigView :=
  CallProgram.call (.selectCredentialKey input.workerId) fun answer : Option (Option WorkerCredentialKey) => do
    let key ← orRefused answer
    match checkUpsert input key with
    | .error error => .throw (.config error)
    | .ok () => writeConfig input

/-- Delete a configuration, detach its instance, and say whose it was. -/
def deleteInstanceConfig (configId : JsString) : EstateProgram (Option JsString) :=
  CallProgram.call (.deleteConfig configId) fun answer : Option (Option (JsString × JsString)) => do
    match ← orRefused answer with
    | none => return none
    | some (workerId, instanceName) =>
      CallProgram.call .readClock fun now : Int => do
        CallProgram.call (.detachInstance workerId instanceName now) orRefused
        return some workerId

/-- Send a worker what is configured for it, if it is connected. -/
def pushInstanceConfigs (workerId : JsString) : EstateProgram Bool :=
  CallProgram.call (.findSession workerId) fun live : Bool =>
    if live then
      CallProgram.call (.selectConfigSet workerId) fun answer : Option (List WorkerInstanceConfig) => do
        let configs ← orRefused answer
        CallProgram.call (.send workerId configs) fun _ => return true
    else return false

end EstateProgram

/-! ## The body of a request -/

structure InstanceConfigBody where
  instanceName : JsString
  serverAddress : JsString
  authMode : SqlAuthMode
  loginName : Option JsString
  credentialCiphertext : Option JsString
  credentialKeyFingerprint : Option JsString
  encryptTls : Option Bool
  trustServerCertificate : Option Bool
  environmentTag : Option JsString

/-- `z.string().min(shortest).max(longest)` -/
def stringField (shortest longest : Nat) : JsonValue → Option JsString
  | .string text => if shortest ≤ text.length ∧ text.length ≤ longest then some text else none
  | _ => none

/-- `z.string().max(longest).nullish()` -/
def nullishText (longest : Nat) : Option JsonValue → Option (Option JsString)
  | none | some .null => some none
  | some value => (stringField 0 longest value).map some

/-- `z.boolean().optional()` -/
def optionalBoolean : Option JsonValue → Option (Option Bool)
  | none => some none
  | some (.bool value) => some (some value)
  | some _ => none

/-- `z.enum(sqlAuthMode)` -/
def authModeField : JsonValue → Option SqlAuthMode
  | .string text =>
    if text = js "integrated" then some .integrated else if text = js "sql" then some .sql else none
  | _ => none

/-- The schema of a body. Nothing but an object passes, and what it does not name is dropped. -/
def parseBody : JsonValue → Option InstanceConfigBody
  | .object fields => do
    let field (name : String) : Option JsonValue := property (js name) fields
    let instanceName ← (field "instanceName").bind (stringField 1 128)
    let serverAddress ← (field "serverAddress").bind (stringField 1 255)
    let authMode ← (field "authMode").bind authModeField
    let loginName ← nullishText 128 (field "loginName")
    let credentialCiphertext ← nullishText 4096 (field "credentialCiphertext")
    let credentialKeyFingerprint ← nullishText 128 (field "credentialKeyFingerprint")
    let encryptTls ← optionalBoolean (field "encryptTls")
    let trustServerCertificate ← optionalBoolean (field "trustServerCertificate")
    let environmentTag ← nullishText 64 (field "environmentTag")
    return { instanceName, serverAddress, authMode, loginName, credentialCiphertext, credentialKeyFingerprint,
             encryptTls, trustServerCertificate, environmentTag }
  | _ => none

/-! ## Requests -/

/-- Who the guard lets through. -/
structure SignedInUser where
  id : JsString
  username : JsString

inductive InstanceConfigAction where
  | save (body : JsonValue)
  | remove (configId : JsString)

/-- A request under the path of a worker. The guard answers it with a status, or lets it through. -/
structure InstanceConfigRequest where
  guarded : Except Nat SignedInUser
  ip : JsString
  workerId : JsString
  action : InstanceConfigAction

inductive InstanceConfigReply where
  | saved (config : InstanceConfigView) (delivered : Bool) (note : JsString)
  | removed
  /-- What the guard answers. -/
  | stopped (status : Nat)
  | failed (status : Nat) (error : JsString) (detail : Option JsString)

def InstanceConfigReply.status : InstanceConfigReply → Nat
  | saved _ _ _ | removed => 200
  | stopped status | failed status _ _ => status

def InstanceConfigReply.IsError (reply : InstanceConfigReply) : Prop := 400 ≤ reply.status

/-- The error handler. The issues that a schema finds are left out. -/
def errorReply : RouteFault → InstanceConfigReply
  | .validation => .failed 400 (js "ValidationError") none
  | .config error => .failed error.statusCode error.code (some error.message)
  | .database => .failed 500 (js "InternalServerError") none

/-- What a save asks of the domain. -/
def InstanceConfigBody.input (body : InstanceConfigBody) (workerId : JsString) (user : SignedInUser) :
    UpsertInstanceConfigInput where
  workerId := workerId
  instanceName := body.instanceName
  serverAddress := body.serverAddress
  authMode := body.authMode
  loginName := body.loginName
  credentialCiphertext := body.credentialCiphertext
  credentialKeyFingerprint := body.credentialKeyFingerprint
  encryptTls := body.encryptTls
  trustServerCertificate := body.trustServerCertificate
  environmentTag := body.environmentTag
  actorId := some user.id

def SqlAuthMode.text : SqlAuthMode → JsString
  | .integrated => js "integrated"
  | .sql => js "sql"

/-- Never the ciphertext, only whether one was supplied. -/
def savedEntry (request : InstanceConfigRequest) (user : SignedInUser) (body : InstanceConfigBody) :
    AuditExport.AuditEntry where
  actorType := .user
  actor := user.username
  action := js "worker.instance_config.saved"
  target := some (request.workerId ++ js "/" ++ body.instanceName)
  detail := some (.object [(js "serverAddress", .string body.serverAddress),
    (js "authMode", .string body.authMode.text),
    (js "loginName", body.loginName.elim .null .string),
    (js "credentialSupplied", .bool (truthyText body.credentialCiphertext).isSome)])
  remoteAddress := some request.ip

def removedEntry (request : InstanceConfigRequest) (user : SignedInUser) (configId : JsString) :
    AuditExport.AuditEntry where
  actorType := .user
  actor := user.username
  action := js "worker.instance_config.removed"
  target := some (request.workerId ++ js "/" ++ configId)
  detail := none
  remoteAddress := some request.ip

def deliveryNote (delivered : Bool) : JsString :=
  if delivered then js "Sent to the worker. It will report back once it has tried to connect."
  else js "Saved. The worker is offline, so it will pick this up when it next connects."

namespace EstateProgram

/-! ## Routes -/

section
variable (isUuid : JsString → Bool) (request : InstanceConfigRequest)

/-- What both routes end with. -/
def recordAndPush (entry : AuditExport.AuditEntry) (workerId : JsString) : EstateProgram Bool := do
  CallProgram.call (.writeAudit entry) orRefused
  pushInstanceConfigs workerId

/-- `PUT /api/workers/:workerId/instance-configs` -/
def putConfig (user : SignedInUser) (body : JsonValue) : EstateProgram InstanceConfigReply :=
  if isUuid request.workerId then
    match parseBody body with
    | none => .throw .validation
    | some body => do
      let saved ← upsertInstanceConfig (body.input request.workerId user)
      let delivered ← recordAndPush (savedEntry request user body) request.workerId
      return .saved saved delivered (deliveryNote delivered)
  else .throw .validation

/-- What follows a deletion, now that it is known whose the configuration was. -/
def answerRemoval (user : SignedInUser) (configId : JsString) (owner : Option JsString) :
    EstateProgram InstanceConfigReply := do
  if owner ≠ some request.workerId then return .failed 404 (js "NotFound") none
  else
    let _ ← recordAndPush (removedEntry request user configId) request.workerId
    return .removed

/-- `DELETE /api/workers/:workerId/instance-configs/:configId` -/
def deleteConfig (user : SignedInUser) (configId : JsString) : EstateProgram InstanceConfigReply :=
  if isUuid request.workerId && isUuid configId then do
    let owner ← deleteInstanceConfig configId
    answerRemoval request user configId owner
  else .throw .validation

/-- Serve a request that the guard lets through. -/
def route (user : SignedInUser) : EstateProgram InstanceConfigReply :=
  match request.action with
  | .save body => putConfig isUuid request user body
  | .remove configId => deleteConfig isUuid request user configId

/-- Answer a request. What a route throws becomes a reply, and nothing is undone. -/
def answer : EstateProgram InstanceConfigReply :=
  match request.guarded with
  | .error status => .done (.stopped status)
  | .ok user => (route isUuid request user).tryCatch fun fault => .done (errorReply fault)

end

end EstateProgram

/-! ## The database -/

/-- What a request meets besides the tables. The clock stands still for its duration. -/
structure EstateWorld where
  table : CaseTable
  clock : Int
  newId : JsString
  live : JsString → Bool
  /-- The database is away, or a text of the statement is not one that it takes. -/
  refuses : EstateCall → Bool

namespace EstateWorld

/-- A statement that is refused changes nothing. -/
def statement {α : Type} (world : EstateWorld) (store : EstateStore) (call : EstateCall)
    (done : Option α × EstateStore) : Option α × EstateStore :=
  if world.refuses call then (none, store) else done

/-- Insert or update. The worker of a configuration has to be there, and a new id be free. -/
def upserted (world : EstateWorld) (store : EstateStore) (input : UpsertInstanceConfigInput) (now : Int) :
    Option (Option JsString) × EstateStore :=
  if store.workers (storedUuid input.workerId) = none then (none, store)
  else if fits : store.Fits input world.newId then
    let after := store.upsert world.table input now world.newId fits
    (some ((after.configs.rows.find? fun row => row.key = input.key).map (·.id)), after)
  else (none, store)

/-- The rows of a worker. They are listed by name, in an order of the database's own that is left out. -/
def configsOf (store : EstateStore) (workerId : JsString) : List InstanceConfigRow :=
  store.configs.rows.filter fun row => row.workerId = storedUuid workerId

def respond (world : EstateWorld) (store : EstateStore) : (call : EstateCall) → EstateAnswer call × EstateStore
  | .readClock => (world.clock, store)
  | .selectCredentialKey workerId =>
    world.statement store (.selectCredentialKey workerId) (some (store.getCredentialKey (storedUuid workerId)), store)
  | .upsertConfig input now => world.statement store (.upsertConfig input now) (world.upserted store input now)
  | .attachInstance workerId instanceName =>
    world.statement store (.attachInstance workerId instanceName)
      (some (), store.marked (storedUuid workerId, instanceName) none)
  | .selectConfigs workerId =>
    world.statement store (.selectConfigs workerId) (some ((configsOf store workerId).map toView), store)
  | .deleteConfig configId =>
    world.statement store (.deleteConfig configId)
      (some ((store.configs.rows.find? fun row => row.id = storedUuid configId).map (·.key)),
        store.remove (storedUuid configId))
  | .detachInstance workerId instanceName now =>
    world.statement store (.detachInstance workerId instanceName now)
      (some (), store.marked (storedUuid workerId, instanceName) (some now))
  | .writeAudit entry => world.statement store (.writeAudit entry) (some (), store)
  | .findSession workerId => (world.live workerId, store)
  | .selectConfigSet workerId =>
    world.statement store (.selectConfigSet workerId)
      (some ((configsOf store workerId).map (·.toWorkerInstanceConfig)), store)
  | .send _ _ => ((), store)

end EstateWorld
end RemoteSqlAgent
