import RemoteSqlAgent.Environments
import RemoteSqlAgent.KeyedTable
import RemoteSqlAgent.WorkerTables

/-! Which instances a worker monitors, and how it logs in. A password is encrypted in the
browser to the key of the worker, so all that is stored is a ciphertext and the
fingerprint of the key it was encrypted to. -/
namespace RemoteSqlAgent
open Js

/-- A whole row of `worker_instance_configs`. -/
structure InstanceConfigRow extends WorkerInstanceConfig where
  id : JsString
  credentialUpdatedAt : Option Int
  credentialUpdatedBy : Option JsString
  createdBy : Option JsString

/-- The unique index. -/
def InstanceConfigRow.key (row : InstanceConfigRow) : JsString × JsString := (row.workerId, row.instanceName)

structure ConfigStore where
  workers : JsString → Option WorkersRow
  configs : KeyedTable InstanceConfigRow.key
  /-- The column of `instances`, by worker and name. -/
  detachedAt : JsString × JsString → Option Int

structure WorkerConfigError where
  statusCode : Nat
  code : JsString
  message : JsString

/-- A configuration that names no worker violates its foreign key. -/
inductive ConfigFault where
  | config (error : WorkerConfigError)
  | database

structure WorkerCredentialKey where
  publicKeyPem : JsString
  fingerprint : JsString

/-- A string that is there, and not empty. -/
def truthyText (text : Option JsString) : Option JsString := text.filter fun text => text ≠ []

namespace ConfigStore

/-- The key to encrypt to. There is none until the worker has published one. -/
def getCredentialKey (store : ConfigStore) (workerId : JsString) : Option WorkerCredentialKey := do
  let row ← store.workers workerId
  let pem ← truthyText row.credentialPublicKeyPem
  let fingerprint ← truthyText row.credentialKeyFingerprint
  return ⟨pem, fingerprint⟩

def updateWorker (store : ConfigStore) (workerId : JsString) (change : WorkersRow → WorkersRow) : ConfigStore :=
  { store with workers := Function.update store.workers workerId ((store.workers workerId).map change) }

/-- The columns of a status. -/
def withStatus (status : ConfigStatus) (detail : Option JsString) (now : Int) (row : InstanceConfigRow) :
    InstanceConfigRow :=
  { row with status := status, statusDetail := detail, statusAt := some now }

theorem key_ite {test : InstanceConfigRow → Prop} [DecidablePred test] {change : InstanceConfigRow → InstanceConfigRow}
    (keeps : ∀ row, (change row).key = row.key) (row : InstanceConfigRow) :
    (if test row then change row else row).key = row.key := by
  split
  · exact keeps row
  · rfl

/-- Change the rows that pass a test, but not their keys. -/
def updateConfigs (store : ConfigStore) (test : InstanceConfigRow → Prop) [DecidablePred test]
    (change : InstanceConfigRow → InstanceConfigRow) (keeps : ∀ row, (change row).key = row.key) : ConfigStore :=
  { store with configs := store.configs.modify (fun row => if test row then change row else row) (key_ite keeps) }

/-! ## A key -/

structure KeyRecorded where
  changed : Bool
  fingerprint : JsString

/-- Record the key a worker published. If it had another one, no ciphertext can be opened
any more. What is wrong with a key that cannot be read is for the crypto library to say. -/
def recordCredentialKey (crypto : Crypto) (store : ConfigStore) (workerId publicKeyPem : JsString) (now : Int) :
    Except ConfigFault (KeyRecorded × ConfigStore) :=
  match crypto.spkiDer publicKeyPem with
  | none => .error (.config ⟨400, js "BadKey", js "The worker published an unreadable public key: "⟩)
  | some der =>
    let fingerprint := js (crypto.sha256 der)
    let existing := (store.workers workerId).bind (·.credentialKeyFingerprint)
    let changed := existing.any (· ≠ fingerprint)
    let published := store.updateWorker workerId fun row => { row with
      credentialPublicKeyPem := some publicKeyPem
      credentialKeyFingerprint := some fingerprint }
    let after := if changed then
        published.updateConfigs (fun row => row.workerId = workerId ∧ row.authMode = .sql)
          (withStatus .awaiting_credentials (some (js ("The worker generated a new key, so the stored credential " ++
            "can no longer be decrypted. Enter it again."))) now) fun _ => rfl
      else published
    .ok (⟨changed, fingerprint⟩, after)

/-! ## A configuration -/

structure UpsertInstanceConfigInput where
  workerId : JsString
  instanceName : JsString
  serverAddress : JsString
  authMode : SqlAuthMode
  loginName : Option JsString
  /-- Left out, what is stored is kept. -/
  credentialCiphertext : Option JsString
  /-- The key the browser encrypted to. -/
  credentialKeyFingerprint : Option JsString
  encryptTls : Option Bool
  trustServerCertificate : Option Bool
  environmentTag : Option JsString
  actorId : Option JsString

/-- A configuration as it is shown, without its ciphertext. -/
structure InstanceConfigView where
  id : JsString
  workerId : JsString
  instanceName : JsString
  serverAddress : JsString
  authMode : SqlAuthMode
  loginName : Option JsString
  hasCredential : Bool
  credentialUpdatedAt : Option Int
  encryptTls : Bool
  trustServerCertificate : Bool
  environmentTag : Option JsString
  status : ConfigStatus
  statusDetail : Option JsString
  statusAt : Option Int

def toView (row : InstanceConfigRow) : InstanceConfigView where
  id := row.id
  workerId := row.workerId
  instanceName := row.instanceName
  serverAddress := row.serverAddress
  authMode := row.authMode
  loginName := row.loginName
  hasCredential := row.credentialCiphertext.isSome
  credentialUpdatedAt := row.credentialUpdatedAt
  encryptTls := row.encryptTls
  trustServerCertificate := row.trustServerCertificate
  environmentTag := row.environmentTag
  status := row.status
  statusDetail := row.statusDetail
  statusAt := row.statusAt

def MAX_CIPHERTEXT_BASE64 : Nat := 4096

/-- What an upsert checks before it writes. -/
def checkUpsert (input : UpsertInstanceConfigInput) (key : Option WorkerCredentialKey) : Except WorkerConfigError Unit :=
  if input.authMode = .sql ∧ truthyText input.loginName = none then
    .error ⟨400, js "MissingLogin", js "SQL authentication needs a login name."⟩
  else
    match truthyText input.credentialCiphertext, key with
    | none, _ => .ok ()
    | some _, none => .error ⟨409, js "NoCredentialKey", js ("This worker has not published an encryption key yet. " ++
        "Wait for it to connect, then set the credential.")⟩
    | some ciphertext, some key =>
      if input.credentialKeyFingerprint ≠ some key.fingerprint then
        .error ⟨409, js "KeyChanged", js ("The worker changed its encryption key while you were filling this in. " ++
          "Reload and enter the credential again.")⟩
      else if ciphertext.length > MAX_CIPHERTEXT_BASE64 then
        .error ⟨400, js "CiphertextTooLarge", js "That credential blob is too large."⟩
      else .ok ()

/-- The columns that every upsert sets. -/
def shared (table : CaseTable) (input : UpsertInstanceConfigInput) (row : InstanceConfigRow) : InstanceConfigRow :=
  { row with
    serverAddress := input.serverAddress
    authMode := input.authMode
    loginName := if input.authMode = .integrated then none else input.loginName
    encryptTls := input.encryptTls.getD true
    trustServerCertificate := input.trustServerCertificate.getD false
    environmentTag := normaliseTag table input.environmentTag }

/-- The columns of the credential. Without a new one, a SQL login keeps what is stored. -/
def credential (input : UpsertInstanceConfigInput) (now : Int) (row : InstanceConfigRow) : InstanceConfigRow :=
  match input.authMode, truthyText input.credentialCiphertext with
  | .integrated, _ => { row with
      credentialCiphertext := none
      credentialKeyFingerprint := none
      credentialUpdatedAt := none
      credentialUpdatedBy := none }
  | .sql, some ciphertext => { row with
      credentialCiphertext := some ciphertext
      credentialKeyFingerprint := input.credentialKeyFingerprint
      credentialUpdatedAt := some now
      credentialUpdatedBy := input.actorId }
  | .sql, none => row

/-- Whether there is something for the worker to try. -/
def usable (input : UpsertInstanceConfigInput) : Bool :=
  input.authMode = .integrated || (truthyText input.credentialCiphertext).isSome

/-- The columns of a new row before those of the credential, and those that are shared. -/
def blankConfig (input : UpsertInstanceConfigInput) (now : Int) (id : JsString) : InstanceConfigRow where
  id := id
  workerId := input.workerId
  instanceName := input.instanceName
  serverAddress := input.serverAddress
  authMode := input.authMode
  loginName := none
  credentialCiphertext := none
  credentialKeyFingerprint := none
  credentialUpdatedAt := none
  credentialUpdatedBy := none
  encryptTls := true
  trustServerCertificate := false
  environmentTag := none
  status := if usable input then .pending else .awaiting_credentials
  statusDetail := none
  statusAt := some now
  createdBy := input.actorId

/-- The row that is inserted. -/
def newConfig (table : CaseTable) (input : UpsertInstanceConfigInput) (now : Int) (id : JsString) : InstanceConfigRow :=
  shared table input (credential input now (blankConfig input now id))

/-- The row that was there, updated. -/
def updatedConfig (table : CaseTable) (input : UpsertInstanceConfigInput) (now : Int) (row : InstanceConfigRow) :
    InstanceConfigRow :=
  let row := shared table input (credential input now row)
  if usable input then withStatus .pending none now row else row

@[simp] theorem key_shared (table : CaseTable) (input : UpsertInstanceConfigInput) (row : InstanceConfigRow) :
    (shared table input row).key = row.key := rfl

@[simp] theorem key_credential (input : UpsertInstanceConfigInput) (now : Int) (row : InstanceConfigRow) :
    (credential input now row).key = row.key := by
  unfold credential
  split <;> rfl

theorem key_newConfig (table : CaseTable) (input : UpsertInstanceConfigInput) (now : Int) (id : JsString) :
    (newConfig table input now id).key = (input.workerId, input.instanceName) := by
  rw [newConfig, key_shared, key_credential]
  rfl

theorem key_updatedConfig (table : CaseTable) (input : UpsertInstanceConfigInput) (now : Int) (row : InstanceConfigRow) :
    (updatedConfig table input now row).key = row.key := by
  have kept : (shared table input (credential input now row)).key = row.key := by simp
  unfold updatedConfig
  split
  · exact kept
  · exact kept

/-- `INSERT … ON CONFLICT DO UPDATE`. -/
def upsertRow (table : CaseTable) (store : ConfigStore) (input : UpsertInstanceConfigInput) (now : Int) (id : JsString) :
    ConfigStore :=
  if free : ¬ store.configs.Holds (newConfig table input now id).key then
    { store with configs := store.configs.add (newConfig table input now id) free }
  else
    store.updateConfigs (fun row => row.key = (input.workerId, input.instanceName)) (updatedConfig table input now)
      (key_updatedConfig table input now)

/-- Save a configuration, and read it back. -/
def upsertInstanceConfig (table : CaseTable) (store : ConfigStore) (input : UpsertInstanceConfigInput) (now : Int)
    (id : JsString) : Except ConfigFault (InstanceConfigView × ConfigStore) :=
  match checkUpsert input (store.getCredentialKey input.workerId) with
  | .error error => .error (.config error)
  | .ok () =>
    if store.workers input.workerId = none then .error .database
    else
      let saved := store.upsertRow table input now id
      -- The instance is attached again.
      let attached := { saved with
        detachedAt := Function.update saved.detachedAt (input.workerId, input.instanceName) none }
      match attached.configs.rows.find? fun row => row.key = (input.workerId, input.instanceName) with
      | none => .error (.config ⟨500, js "Internal", js "Failed to read back the configuration."⟩)
      | some row => .ok (toView row, attached)

/-! ## What an upsert leaves -/

theorem getCredentialKey_eq_some {store : ConfigStore} {workerId : JsString} {key : WorkerCredentialKey}
    (found : store.getCredentialKey workerId = some key) :
    (store.workers workerId).bind (·.credentialKeyFingerprint) = some key.fingerprint := by
  simp only [getCredentialKey, truthyText, Option.bind_eq_bind, Option.bind_eq_some_iff,
    Option.filter_eq_some_iff] at found
  obtain ⟨row, held, pem, -, fingerprint, ⟨published, -⟩, same⟩ := found
  cases same
  rw [held]
  exact published

/-- A new ciphertext is for the key of the worker. -/
theorem checkUpsert_key {input : UpsertInstanceConfigInput} {key : Option WorkerCredentialKey}
    (checked : checkUpsert input key = .ok ()) (new : truthyText input.credentialCiphertext ≠ none) :
    ∃ current, key = some current ∧ input.credentialKeyFingerprint = some current.fingerprint := by
  obtain ⟨ciphertext, isNew⟩ := Option.ne_none_iff_exists'.mp new
  unfold checkUpsert at checked
  rw [isNew] at checked
  split at checked
  · cases checked
  · cases key with
    | none => cases checked
    | some current =>
      refine ⟨current, rfl, ?_⟩
      by_contra other
      simp [other] at checked

theorem workers_upsertRow (table : CaseTable) (store : ConfigStore) (input : UpsertInstanceConfigInput) (now : Int)
    (id : JsString) : (store.upsertRow table input now id).workers = store.workers := by
  unfold upsertRow
  split <;> rfl

theorem detachedAt_upsertRow (table : CaseTable) (store : ConfigStore) (input : UpsertInstanceConfigInput) (now : Int)
    (id : JsString) : (store.upsertRow table input now id).detachedAt = store.detachedAt := by
  unfold upsertRow
  split <;> rfl

/-- An upsert that passes its checks, for a worker there is, writes the row and attaches the
instance. -/
theorem upsertInstanceConfig_after {table : CaseTable} {store : ConfigStore} {input : UpsertInstanceConfigInput}
    {now : Int} {id : JsString} {result : InstanceConfigView × ConfigStore}
    (upserted : store.upsertInstanceConfig table input now id = .ok result) :
    checkUpsert input (store.getCredentialKey input.workerId) = .ok () ∧ store.workers input.workerId ≠ none ∧
      result.2 = { store.upsertRow table input now id with
        detachedAt := Function.update (store.upsertRow table input now id).detachedAt
          (input.workerId, input.instanceName) none } := by
  unfold upsertInstanceConfig at upserted
  split at upserted
  · cases upserted
  next checked =>
    split at upserted
    · cases upserted
    next owned =>
      refine ⟨checked, owned, ?_⟩
      dsimp only at upserted
      split at upserted
      · cases upserted
      · cases upserted
        rfl

/-- It leaves the workers and the other rows. -/
theorem upsertInstanceConfig_ok {table : CaseTable} {store : ConfigStore} {input : UpsertInstanceConfigInput}
    {now : Int} {id : JsString} {result : InstanceConfigView × ConfigStore}
    (upserted : store.upsertInstanceConfig table input now id = .ok result) :
    checkUpsert input (store.getCredentialKey input.workerId) = .ok () ∧ store.workers input.workerId ≠ none ∧
      result.2.workers = store.workers ∧ result.2.configs = (store.upsertRow table input now id).configs := by
  obtain ⟨checked, owned, after⟩ := upsertInstanceConfig_after upserted
  rw [after]
  exact ⟨checked, owned, workers_upsertRow table store input now id, rfl⟩

/-- The rows after an upsert: those with another key, and the one that is saved. -/
theorem mem_upsertRow (table : CaseTable) (store : ConfigStore) (input : UpsertInstanceConfigInput) (now : Int)
    (id : JsString) : ∃ saved,
      (∀ row, row ∈ (store.upsertRow table input now id).configs ↔
        row ∈ store.configs ∧ row.key ≠ (input.workerId, input.instanceName) ∨ row = saved) ∧
      ((saved = newConfig table input now id ∧ ¬ store.configs.Holds (input.workerId, input.instanceName)) ∨
        ∃ row ∈ store.configs, row.key = (input.workerId, input.instanceName) ∧
          saved = updatedConfig table input now row) := by
  unfold upsertRow
  split
  next free =>
    refine ⟨newConfig table input now id, fun row => ?_, .inl ⟨rfl, key_newConfig table input now id ▸ free⟩⟩
    rw [KeyedTable.mem_iff, KeyedTable.rows_add, List.mem_append, List.mem_singleton]
    refine or_congr_left ⟨fun held => ⟨held, fun same => free ?_⟩, And.left⟩
    rw [key_newConfig, ← same]
    exact KeyedTable.holds_of_mem held
  next taken =>
    rw [key_newConfig] at taken
    obtain ⟨old, held, isKey⟩ := KeyedTable.holds_iff.mp (not_not.mp taken)
    refine ⟨updatedConfig table input now old, fun row => ?_, .inr ⟨old, held, isKey, rfl⟩⟩
    rw [← isKey]
    exact KeyedTable.mem_rewritten held rfl

/-- The row that is saved has the key of the upsert. -/
theorem upsertRow_saves (table : CaseTable) (store : ConfigStore) (input : UpsertInstanceConfigInput) (now : Int)
    (id : JsString) : ∃ saved : InstanceConfigRow, saved.key = (input.workerId, input.instanceName) ∧
      ∀ row, row ∈ (store.upsertRow table input now id).configs ↔
        row ∈ store.configs ∧ row.key ≠ (input.workerId, input.instanceName) ∨ row = saved := by
  obtain ⟨saved, rows, savedAs⟩ := mem_upsertRow table store input now id
  refine ⟨saved, ?_, rows⟩
  rcases savedAs with ⟨rfl, -⟩ | ⟨row, -, isKey, rfl⟩
  · exact key_newConfig table input now id
  · rw [key_updatedConfig, isKey]

theorem upsertInstanceConfig_succeeds (table : CaseTable) {store : ConfigStore} {input : UpsertInstanceConfigInput}
    (now : Int) (id : JsString) (checked : checkUpsert input (store.getCredentialKey input.workerId) = .ok ())
    (owned : store.workers input.workerId ≠ none) :
    ∃ result, store.upsertInstanceConfig table input now id = .ok result := by
  obtain ⟨saved, isKey, rows⟩ := upsertRow_saves table store input now id
  unfold upsertInstanceConfig
  rw [checked]
  simp only [if_neg owned]
  split
  next missing =>
    have there : saved ∈ (store.upsertRow table input now id).configs := (rows saved).mpr (.inr rfl)
    exact absurd (decide_eq_true isKey) (by simpa using List.find?_eq_none.mp missing saved there)
  next row found => exact ⟨_, rfl⟩

/-! ## A report -/

/-- What the worker made of a configuration. -/
def recordResult (store : ConfigStore) (workerId : JsString) (now : Int) (result : InstanceConfigResult) : ConfigStore :=
  store.updateConfigs (fun row => row.workerId = workerId ∧ row.instanceName = result.instanceName)
    (withStatus (toConfigStatus result.status) (truthyText (some result.detail)) now) fun _ => rfl

def recordInstanceConfigStatus (store : ConfigStore) (workerId : JsString) (results : List InstanceConfigResult)
    (now : Int) : ConfigStore :=
  results.foldl (fun store result => store.recordResult workerId now result) store

/-! ## What changes where rows pass a test -/

theorem mem_updateConfigs {store : ConfigStore} {test : InstanceConfigRow → Prop} [DecidablePred test]
    {change : InstanceConfigRow → InstanceConfigRow} {keeps : ∀ row, (change row).key = row.key}
    {row : InstanceConfigRow} : row ∈ (store.updateConfigs test change keeps).configs ↔
      ∃ held ∈ store.configs, (if test held then change held else held) = row := List.mem_map

/-- A key that is recorded becomes the key of its worker. If it replaces another, every SQL
login of the worker awaits credentials. -/
theorem recordCredentialKey_ok {crypto : Crypto} {store : ConfigStore} {workerId publicKeyPem : JsString} {now : Int}
    {result : KeyRecorded × ConfigStore}
    (recorded : store.recordCredentialKey crypto workerId publicKeyPem now = .ok result) :
    result.2.workers = Function.update store.workers workerId ((store.workers workerId).map fun row => { row with
        credentialPublicKeyPem := some publicKeyPem
        credentialKeyFingerprint := some result.1.fingerprint }) ∧
      result.1.changed = ((store.workers workerId).bind (·.credentialKeyFingerprint)).any (· ≠ result.1.fingerprint) ∧
      (result.1.changed = false → result.2.configs = store.configs) ∧
      (result.1.changed = true → ∃ detail, ∀ row, row ∈ result.2.configs ↔ ∃ held ∈ store.configs,
        (if held.workerId = workerId ∧ held.authMode = .sql then withStatus .awaiting_credentials detail now held
          else held) = row) := by
  unfold recordCredentialKey at recorded
  split at recorded
  · cases recorded
  · cases recorded
    dsimp only
    refine ⟨?_, rfl, fun same => ?_, fun changed => ?_⟩
    · split <;> rfl
    · rw [if_neg (Bool.eq_false_iff.mp same)]
      rfl
    · rw [if_pos changed]
      exact ⟨_, fun row => mem_updateConfigs⟩

/-! ## The tables of the hub -/

/-- The tables of the hub, with the configurations and the keys of this store. -/
def mirrored (store : ConfigStore) (tables : WorkerTables) : WorkerTables :=
  { tables with
    workers := store.workers
    workerInstanceConfigs := store.configs.rows.map (·.toWorkerInstanceConfig) }

/-- Setting statuses here is setting them there. -/
theorem mirrored_updateConfigs (store : ConfigStore) (tables : WorkerTables) {test : InstanceConfigRow → Prop}
    [DecidablePred test] {status : ConfigStatus} {detail : Option JsString} {now : Int}
    {there : WorkerInstanceConfig → Bool} (same : ∀ row, there row.toWorkerInstanceConfig = true ↔ test row) :
    (store.updateConfigs test (withStatus status detail now) fun _ => rfl).mirrored tables =
      (store.mirrored tables).updateConfigs there status detail now := by
  have rows : (store.configs.rows.map fun row => if test row then withStatus status detail now row else row).map
      (·.toWorkerInstanceConfig) = updateWhere (store.configs.rows.map (·.toWorkerInstanceConfig)) there fun row =>
        { row with status := status, statusDetail := detail, statusAt := some now } := by
    rw [updateWhere, List.map_map, List.map_map]
    apply List.map_congr_left
    intro row _
    rw [Function.comp_apply, Function.comp_apply]
    by_cases tested : test row
    · rw [if_pos tested, if_pos ((same row).mpr tested)]
      rfl
    · rw [if_neg tested, if_neg (mt (same row).mp tested)]
  exact congrArg (fun configs => { store.mirrored tables with workerInstanceConfigs := configs }) rows

/-- What a hello does with the key is this operation. -/
theorem recordCredentialKey_writes {crypto : Crypto} {store after : ConfigStore} {workerId publicKeyPem : JsString}
    {now : Int} {recorded : KeyRecorded}
    (ok : store.recordCredentialKey crypto workerId publicKeyPem now = .ok (recorded, after)) (tables : WorkerTables) :
    HubCall.Writes crypto (store.mirrored tables) (.recordCredentialKey workerId publicKeyPem) (.ok recorded.changed)
      (after.mirrored tables) := by
  unfold recordCredentialKey at ok
  split at ok
  · cases ok
  next der readable =>
    cases ok
    refine ⟨der, now, readable, rfl, ?_⟩
    dsimp only
    split
    · rw [mirrored_updateConfigs]
      · rfl
      · intro row
        exact decide_eq_true_iff
    · rfl

/-- What the stream does with a result is this operation. -/
theorem recordResult_mirrored (store : ConfigStore) (workerId : JsString) (now : Int) (result : InstanceConfigResult)
    (tables : WorkerTables) :
    (store.recordResult workerId now result).mirrored tables = (store.mirrored tables).updateConfigs
      (fun row => row.workerId = workerId ∧ row.instanceName = result.instanceName) (toConfigStatus result.status)
      (truthyText (some result.detail)) now :=
  mirrored_updateConfigs store tables fun _ => decide_eq_true_iff

end ConfigStore
end RemoteSqlAgent
