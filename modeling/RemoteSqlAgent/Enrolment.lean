import RemoteSqlAgent.RowLocks
import RemoteSqlAgent.JsCase
import RemoteSqlAgent.SnapshotAssembly
import RemoteSqlAgent.WorkerTables

/-! Enrolment. A single-use token is redeemed for a durable credential: the token is spent
and the worker registered in one transaction, in which the row of the token is locked, and
the credential of the token's mode is made after it. -/
namespace RemoteSqlAgent
open Js CallProgram

/-! ## Rows -/

structure EnrolmentToken where
  id : JsString
  tokenHash : JsString
  hostName : JsString
  credentialMode : WorkerAuthMode
  intendedCapabilities : List JsString
  expiresAt : Int
  usedAt : Option Int
  usedByWorkerId : Option JsString

/-- A row of `workers` with its id. -/
structure RegisteredWorker extends WorkersRow where
  id : JsString

/-- What is inserted into `worker_credentials`. -/
structure CredentialValues where
  workerId : JsString
  mode : WorkerAuthMode
  secretHash : Option JsString := none
  secretPrefix : Option JsString := none
  certSerial : Option JsString := none
  certFingerprint : Option JsString := none
  certPem : Option JsString := none
  entraObjectId : Option JsString := none
  entraTenantId : Option JsString := none
  label : JsString
  expiresAt : Option Int := none

structure StoredCredential extends CredentialValues where
  id : JsString

/-- The row of the authority in `server_keys`. -/
structure ServerKey where
  privateKeyPem : JsString
  publicKeyPem : JsString
  certificatePem : Option JsString

structure CaMaterial where
  privateKeyPem : JsString
  certificatePem : JsString

/-- The authority, if its row has a certificate. -/
def ServerKey.material (row : ServerKey) : Option CaMaterial :=
  match row.certificatePem with
  | none | some [] => none
  | some certificatePem => some ⟨row.privateKeyPem, certificatePem⟩

structure EnrolmentTables where
  enrolmentTokens : KeyedTable EnrolmentToken.tokenHash
  workers : KeyedTable fun worker : RegisteredWorker => worker.hostName
  workerCredentials : List StoredCredential
  serverKey : Option ServerKey

/-! ## Calls -/

/-- What `redeemEnrolmentToken` asks of the database and the libraries. The statements of a
transaction have its number. -/
inductive EnrolmentCall where
  | readClock
  | begin
  /-- `SELECT … WHERE token_hash = … AND used_at IS NULL FOR UPDATE`. -/
  | selectToken (tx : Nat) (tokenHash : JsString)
  /-- `INSERT … ON CONFLICT (host_name) DO UPDATE … RETURNING id`. -/
  | upsertWorker (tx : Nat) (hostName version : JsString) (capabilities : List JsString)
  | useToken (tx : Nat) (id : JsString) (usedAt : Int) (usedByWorkerId : JsString)
  | commit (tx : Nat)
  | rollback (tx : Nat)
  | generateWorkerKey
  | hashWorkerKey (key : JsString)
  | selectServerKey
  | generateCa
  /-- `ON CONFLICT DO NOTHING`. -/
  | insertServerKey (row : ServerKey)
  | selectWorker (workerId : JsString)
  | issueClientCertificate (ca : CaMaterial) (csrPem workerId hostName : JsString) (validityDays : Int)
  | insertCredential (values : CredentialValues)
  | updateCertificate (workerId certSerial : JsString) (certExpiresAt : Int)
  | writeAudit (actor action : JsString) (target remoteAddress : Option JsString)

/-- A key and the part of it that is kept. -/
structure WorkerKey where
  key : JsString
  keyPrefix : JsString

def EnrolmentAnswer : EnrolmentCall → Type
  | .readClock => Int
  | .begin => Except JsString Nat
  | .selectToken _ _ => Except JsString (Option EnrolmentToken)
  | .upsertWorker _ _ _ _ => Except JsString (Option JsString)
  | .useToken _ _ _ _ => Except JsString Unit
  | .commit _ => Except JsString Unit
  | .rollback _ => Except JsString Unit
  | .generateWorkerKey => WorkerKey
  | .hashWorkerKey _ => Except JsString JsString
  | .selectServerKey => Except JsString (Option ServerKey)
  | .generateCa => ServerKey
  | .insertServerKey _ => Except JsString Unit
  | .selectWorker _ => Except JsString (Option RegisteredWorker)
  | .issueClientCertificate _ _ _ _ _ => Except JsString IssuedCertificate
  | .insertCredential _ => Except JsString Unit
  | .updateCertificate _ _ _ => Except JsString Unit
  | .writeAudit _ _ _ _ => Except JsString Unit

/-- An `EnrolmentError`, or what something else threw. -/
inductive EnrolmentFailure where
  | enrolment (code message : JsString)
  | other (message : JsString)

def EnrolmentFailure.code : EnrolmentFailure → JsString
  | enrolment code _ => code
  | other _ => js "Internal"

def EnrolmentFailure.message : EnrolmentFailure → JsString
  | enrolment _ message | other message => message

abbrev Enrolment (α : Type) := CallProgram EnrolmentCall EnrolmentAnswer EnrolmentFailure α

/-- Throw what a statement throws. -/
def orReject {α : Type} : Except JsString α → Enrolment α
  | .ok value => .done value
  | .error message => .throw (.other message)

/-! ## Redemption -/

structure EnrolmentConfig where
  caseTable : CaseTable
  hashToken : JsString → JsString
  enabledModes : List WorkerAuthMode
  tokenTtlDays : Option Int
  certValidityDays : Int

structure EnrolRequestParams where
  token : JsString
  hostName : JsString
  workerVersion : JsString
  csrPem : Option JsString
  entraObjectId : Option JsString
  entraTenantId : Option JsString

structure EnrolResult where
  workerId : JsString
  mode : WorkerAuthMode
  workerKey : Option JsString := none
  certificatePem : Option JsString := none
  caCertificatePem : Option JsString := none
  notAfter : Option Int := none

/-- Whom a token was redeemed for. -/
structure Redeemed where
  workerId : JsString
  mode : WorkerAuthMode

/-- `db.transaction`. What its body throws is rolled back. -/
def transaction {α : Type} (body : Nat → Enrolment α) : Enrolment α :=
  CallProgram.call .begin fun answer : Except JsString Nat => do
    let tx ← orReject answer
    let value ← (body tx).tryCatch fun err =>
      CallProgram.call (.rollback tx) fun answer : Except JsString Unit => do
        orReject answer
        .throw err
    CallProgram.call (.commit tx) orReject
    return value

section
variable (config : EnrolmentConfig) (params : EnrolRequestParams)

/-- Register the worker, and spend the token. -/
def registerWorker (tx : Nat) (token : EnrolmentToken) : Enrolment Redeemed :=
  CallProgram.call (.upsertWorker tx params.hostName params.workerVersion token.intendedCapabilities)
    fun answer : Except JsString (Option JsString) => do
  match ← orReject answer with
  | none => .throw (.enrolment (js "Internal") (js "Failed to register the worker."))
  | some workerId =>
    CallProgram.call .readClock fun usedAt : Int => do
      CallProgram.call (.useToken tx token.id usedAt workerId) orReject
      return ⟨workerId, token.credentialMode⟩

/-- The body of the transaction. -/
def spendToken (tx : Nat) : Enrolment Redeemed :=
  CallProgram.call (.selectToken tx (config.hashToken params.token))
    fun answer : Except JsString (Option EnrolmentToken) => do
  match ← orReject answer with
  | none => .throw (.enrolment (js "InvalidToken") (js "That enrolment token is unknown or already used."))
  | some token =>
    CallProgram.call .readClock fun now : Int =>
      if token.expiresAt < now then
        .throw (.enrolment (js "TokenExpired") (js "That enrolment token has expired. Generate a new one."))
      else if config.caseTable.toLowerCase token.hostName ≠ config.caseTable.toLowerCase params.hostName then
        .throw (.enrolment (js "HostMismatch") (js "This token was issued for " ++ token.hostName ++
          js ", but enrolment came from " ++ params.hostName ++ js "."))
      else if token.credentialMode ∉ config.enabledModes then
        .throw (.enrolment (js "ModeDisabled") (js "Worker auth mode \"" ++ token.credentialMode.text ++
          js "\" is not enabled on this control plane."))
      else registerWorker params tx token

def tokenExpiry : Enrolment (Option Int) :=
  match config.tokenTtlDays with
  | none => return none
  | some days => CallProgram.call .readClock fun now : Int => return some (now + days * 24 * 60 * 60 * 1000)

def issueWorkerKey (workerId : JsString) : Enrolment EnrolResult :=
  CallProgram.call .generateWorkerKey fun generated : WorkerKey => do
    let expiresAt ← tokenExpiry config
    let secretHash ← CallProgram.call (.hashWorkerKey generated.key) orReject
    CallProgram.call (.insertCredential {
      workerId := workerId
      mode := .token
      secretHash := some secretHash
      secretPrefix := some generated.keyPrefix
      label := js "Issued at enrolment"
      expiresAt := expiresAt }) orReject
    return { workerId := workerId, mode := .token, workerKey := some generated.key, notAfter := expiresAt }

/-- The authority that is there, or a new one. Another node may have stored its own in the
meantime, and then that is used. -/
def loadOrCreateCa : Enrolment CaMaterial :=
  CallProgram.call .selectServerKey fun answer : Except JsString (Option ServerKey) => do
    match (← orReject answer).bind ServerKey.material with
    | some ca => return ca
    | none => CallProgram.call .generateCa fun row : ServerKey => do
      CallProgram.call (.insertServerKey row) orReject
      CallProgram.call .selectServerKey fun answer : Except JsString (Option ServerKey) => do
        match (← orReject answer).bind ServerKey.material with
        | some ca => return ca
        | none => .throw (.other (js "Failed to persist the worker CA."))

def issueCertificate (workerId csrPem : JsString) : Enrolment EnrolResult := do
  let ca ← loadOrCreateCa
  let worker ← CallProgram.call (.selectWorker workerId) orReject
  let hostName := worker.elim params.hostName fun row : RegisteredWorker => row.hostName
  let issued ← CallProgram.call (.issueClientCertificate ca csrPem workerId hostName config.certValidityDays) orReject
  CallProgram.call (.insertCredential {
    workerId := workerId
    mode := .mtls
    certSerial := some issued.serial
    certFingerprint := some issued.fingerprint
    certPem := some issued.certificatePem
    label := js "Issued at enrolment"
    expiresAt := some issued.notAfter }) orReject
  CallProgram.call (.updateCertificate workerId issued.serial issued.notAfter) orReject
  return {
    workerId := workerId
    mode := .mtls
    certificatePem := some issued.certificatePem
    caCertificatePem := some ca.certificatePem
    notAfter := some issued.notAfter }

def pinIdentity (workerId entraObjectId : JsString) : Enrolment EnrolResult := do
  CallProgram.call (.insertCredential {
    workerId := workerId
    mode := .entra
    entraObjectId := some entraObjectId
    entraTenantId := params.entraTenantId
    label := js "Managed identity pinned at enrolment" }) orReject
  return { workerId := workerId, mode := .entra }

/-- Make the credential of a mode. -/
def issueCredential (redeemed : Redeemed) : Enrolment EnrolResult :=
  match redeemed.mode with
  | .token => issueWorkerKey config redeemed.workerId
  | .mtls =>
    match params.csrPem with
    | none | some [] =>
      .throw (.enrolment (js "CsrRequired") (js "mTLS enrolment requires a certificate signing request."))
    | some csrPem => issueCertificate config params redeemed.workerId csrPem
  | .entra =>
    match params.entraObjectId with
    | none | some [] =>
      .throw (.enrolment (js "IdentityRequired") (js "Entra enrolment requires a validated workload identity token."))
    | some entraObjectId => pinIdentity params redeemed.workerId entraObjectId

/-- Redeem a token for a durable credential. -/
def redeemEnrolmentToken : Enrolment EnrolResult := do
  let redeemed ← transaction (spendToken config params)
  issueCredential config params redeemed

end

/-! ## The service -/

structure EnrolRequest where
  enrolmentToken : JsString
  hostName : JsString
  workerVersion : JsString
  csrPem : JsString

structure EnrolResponse where
  workerId : JsString
  workerKey : JsString
  certificatePem : JsString
  caCertificatePem : JsString
  notAfter : Option Timestamp

inductive EnrolStatus where
  | unauthenticated
  | permissionDenied
  deriving DecidableEq

/-- What is redeemed for a request. It never has an identity. -/
def EnrolRequest.params (request : EnrolRequest) : EnrolRequestParams where
  token := request.enrolmentToken
  hostName := request.hostName
  workerVersion := request.workerVersion
  csrPem := if request.csrPem = [] then none else some request.csrPem
  entraObjectId := none
  entraTenantId := none

def EnrolmentFailure.status (err : EnrolmentFailure) : EnrolStatus :=
  if err.code = js "InvalidToken" ∨ err.code = js "TokenExpired" then .unauthenticated else .permissionDenied

/-- Serve a request. A redemption that cannot be audited is answered as a failure. -/
def enrol (config : EnrolmentConfig) (peer : JsString) (request : EnrolRequest) :
    Enrolment (Except (EnrolStatus × JsString) EnrolResponse) := do
  let served ← (do
    let result ← redeemEnrolmentToken config request.params
    CallProgram.call (.writeAudit request.hostName (js "worker.enrolled") (some result.workerId) (some peer)) orReject
    return result).attempt
  match served with
  | .ok result => return .ok {
      workerId := result.workerId
      workerKey := result.workerKey.getD []
      certificatePem := result.certificatePem.getD []
      caCertificatePem := result.caCertificatePem.getD []
      notAfter := result.notAfter.map toTimestamp }
  | .error err =>
    let actor := if request.hostName = [] then peer else request.hostName
    CallProgram.call (.writeAudit actor (js "worker.enrolment.failed") none (some peer)) fun _ =>
      return .error (err.status, err.message)

/-! ## The database -/

/-- The rows that a transaction locks. -/
inductive EnrolmentLock where
  | token (id : JsString)
  | worker (hostName : JsString)
  deriving DecidableEq

/-- What a transaction writes. -/
inductive EnrolmentWrite where
  | upsertWorker (id hostName version : JsString) (capabilities : List JsString)
  | useToken (id : JsString) (usedAt : Int) (usedByWorkerId : JsString)

def EnrolmentWrite.target : EnrolmentWrite → EnrolmentLock
  | upsertWorker _ hostName _ _ => .worker hostName
  | useToken id _ _ => .token id

/-- A worker of which nothing else is known yet. -/
def newWorker (id hostName version : JsString) (capabilities : List JsString) : RegisteredWorker where
  id := id
  hostName := hostName
  capabilities := capabilities
  version := some version
  maxCapabilityReported := none
  credentialPublicKeyPem := none
  credentialKeyFingerprint := none
  certSerial := none
  certExpiresAt := none
  connectedAt := none
  lastSeenAt := none
  lastRemoteAddress := none

namespace EnrolmentTables

/-- The token that a hash is of, if it was not used. -/
def unusedToken (tables : EnrolmentTables) (tokenHash : JsString) : Option EnrolmentToken :=
  tables.enrolmentTokens.rows.find? fun row => row.tokenHash = tokenHash ∧ row.usedAt = none

def useToken (tables : EnrolmentTables) (id : JsString) (usedAt : Int) (usedByWorkerId : JsString) : EnrolmentTables :=
  { tables with
    enrolmentTokens := tables.enrolmentTokens.modify
      (fun row =>
        if row.id = id then { row with usedAt := some usedAt, usedByWorkerId := some usedByWorkerId } else row)
      fun row => by split <;> rfl }

def upsertWorker (tables : EnrolmentTables) (id hostName version : JsString) (capabilities : List JsString) :
    EnrolmentTables :=
  if held : tables.workers.Holds hostName then
    { tables with
      workers := tables.workers.modify
        (fun row =>
          if row.hostName = hostName then { row with version := some version, capabilities := capabilities } else row)
        fun row => by split <;> rfl }
  else { tables with workers := tables.workers.add (newWorker id hostName version capabilities) held }

def write (tables : EnrolmentTables) : EnrolmentWrite → EnrolmentTables
  | .upsertWorker id hostName version capabilities => tables.upsertWorker id hostName version capabilities
  | .useToken id usedAt usedByWorkerId => tables.useToken id usedAt usedByWorkerId

def updateCertificate (tables : EnrolmentTables) (workerId certSerial : JsString) (certExpiresAt : Int) :
    EnrolmentTables :=
  { tables with
    workers := tables.workers.modify
      (fun row => if row.id = workerId then
        { row with certSerial := some certSerial, certExpiresAt := some certExpiresAt } else row)
      fun row => by split <;> rfl }

/-- The id that `RETURNING` gives: of the row with the host name, or a new one. -/
def Registers (tables : EnrolmentTables) (hostName id : JsString) : Prop :=
  (∃ row ∈ tables.workers.rows, row.hostName = hostName ∧ row.id = id) ∨
    ¬ tables.workers.Holds hostName ∧ ∀ row ∈ tables.workers.rows, row.id ≠ id

instance (tables : EnrolmentTables) (hostName id : JsString) : Decidable (tables.Registers hostName id) :=
  inferInstanceAs (Decidable (_ ∨ _))

/-- The foreign key and the unique indexes. -/
def Accepts (tables : EnrolmentTables) (values : CredentialValues) : Prop :=
  (∃ row ∈ tables.workers.rows, row.id = values.workerId) ∧
    (∀ row ∈ tables.workerCredentials, values.certSerial ≠ none → row.certSerial ≠ values.certSerial) ∧
    ∀ row ∈ tables.workerCredentials, values.entraObjectId ≠ none → row.entraObjectId ≠ values.entraObjectId

instance (tables : EnrolmentTables) (values : CredentialValues) : Decidable (tables.Accepts values) :=
  inferInstanceAs (Decidable (_ ∧ _ ∧ _))

end EnrolmentTables

/-- What was committed, and the transactions in progress. -/
structure EnrolmentDb where
  tables : EnrolmentTables
  locks : RowLocks EnrolmentWrite.target

/-- What a call can be answered, and what the database can be after it. A statement that
fails changes nothing, and one that wants a row that another transaction holds is not
answered before that ends. -/
def EnrolmentCall.Does (db : EnrolmentDb) : (call : EnrolmentCall) → EnrolmentAnswer call → EnrolmentDb → Prop
  | .begin, .ok tx, after => tx = db.locks.next ∧ after = { db with locks := db.locks.start }
  | .selectToken tx tokenHash, .ok none, after =>
    (db.locks.running tx).isSome ∧ db.tables.unusedToken tokenHash = none ∧ after = db
  | .selectToken tx tokenHash, .ok (some token), after =>
    (db.locks.running tx).isSome ∧ db.tables.unusedToken tokenHash = some token ∧
      ∃ free own, after = { db with locks := db.locks.hold tx (.token token.id) [] free own }
  | .upsertWorker tx hostName version capabilities, .ok answer, after =>
    (db.locks.running tx).isSome ∧ ∃ id, answer = some id ∧ db.tables.Registers hostName id ∧
      ∃ free own, after = { db with
        locks := db.locks.hold tx (.worker hostName) [.upsertWorker id hostName version capabilities] free own }
  | .useToken tx id usedAt usedByWorkerId, .ok _, after =>
    (db.locks.running tx).isSome ∧ ∃ free own, after = { db with
      locks := db.locks.hold tx (.token id) [.useToken id usedAt usedByWorkerId] free own }
  | .commit tx, .ok _, after => ∃ transaction, db.locks.running tx = some transaction ∧
    after = { tables := transaction.writes.foldl .write db.tables, locks := db.locks.finish tx }
  | .commit tx, .error _, after => after = { db with locks := db.locks.finish tx }
  | .rollback tx, _, after => after = { db with locks := db.locks.finish tx }
  | .selectServerKey, .ok row, after => row = db.tables.serverKey ∧ after = db
  | .insertServerKey row, .ok _, after =>
    after = { db with tables := { db.tables with serverKey := some (db.tables.serverKey.getD row) } }
  | .selectWorker workerId, .ok row, after =>
    row = db.tables.workers.rows.find? (fun row => row.id = workerId) ∧ after = db
  | .insertCredential values, .ok _, after =>
    db.tables.Accepts values ∧ ∃ id, after = { db with
      tables := { db.tables with workerCredentials := db.tables.workerCredentials ++ [{ values with id := id }] } }
  | .updateCertificate workerId certSerial certExpiresAt, .ok _, after =>
    (∀ row ∈ db.tables.workers.rows, row.id = workerId → ∀ number transaction,
      db.locks.running number = some transaction → .worker row.hostName ∉ transaction.locked) ∧
      after = { db with tables := db.tables.updateCertificate workerId certSerial certExpiresAt }
  | _, _, after => after = db

end RemoteSqlAgent
