import RemoteSqlAgent.CommandHandler
import RemoteSqlAgent.Interleaving
import RemoteSqlAgent.JsCase
import RemoteSqlAgent.JsMap
import Mathlib.Data.List.Infix

/-! The instances that a worker monitors: those of `worker.yaml`, which are retried until
they connect, and those that the control plane configures. What runs from one `await` to
the next is one step; in between, retries and reconciliations take turns. -/
namespace RemoteSqlAgent
open Js CallProgram

inductive ConfigSource where
  | file
  | remote
  deriving DecidableEq

structure InstanceConfig where
  name : JsString
  server : JsString
  port : Option Nat
  database : JsString
  user : Option JsString
  password : Option JsString
  domain : Option JsString
  encrypt : Bool
  trustServerCertificate : Bool
  connectionTimeoutMs : Nat
  requestTimeoutMs : Nat
  deriving DecidableEq

structure WireInstanceConfig where
  instanceName : JsString
  serverAddress : JsString
  authMode : JsString
  loginName : JsString
  credentialCiphertext : JsString
  credentialKeyFingerprint : JsString
  encryptTls : Bool
  trustServerCertificate : Bool

structure InstanceConfigOutcome where
  instanceName : JsString
  status : JsString
  detail : JsString
  deriving DecidableEq

/-- What the worker has to decrypt credentials with, and what the platform does. -/
structure MonitorSetDeps where
  fingerprint : JsString
  /-- `privateDecrypt(key, Buffer.from(ciphertext, 'base64')).toString('utf8')`. -/
  privateDecrypt : JsString → Except JsString JsString
  /-- `JSON.parse`. -/
  parseJson : JsString → Except JsString JsValue
  /-- `Number(text)`, where that is an integer. -/
  number : JsString → Option Int
  /-- The message of the error at a configuration that does not parse. -/
  configSchemaMessage : InstanceConfig → JsString

/-- Everything that changes how the worker connects. -/
def signatureOf (config : InstanceConfig) : JsString :=
  let orNull (text : Option JsString) : JsonValue := text.elim .null .string
  stringify (.array [.string config.server, config.port.elim .null fun port => .number port,
    orNull config.user, orNull config.password, .bool config.encrypt, .bool config.trustServerCertificate])

/-- The text up to its last comma, and what follows that. -/
def splitAtLastComma (address : JsString) : Option (JsString × JsString) :=
  match address.reverse.span (· ≠ (0x2C : CodeUnit)) with
  | (_, []) => none
  | (after, _ :: before) => some (before.reverse, after.reverse)

def splitServerAddress (deps : MonitorSetDeps) (address : JsString) : JsString × Option Nat :=
  match splitAtLastComma address with
  | none => (trim address, none)
  | some (server, text) =>
    match deps.number (trim text) with
    | some port => if port < 1 ∨ port > 65535 then (trim address, none) else (trim server, some port.toNat)
    | none => (trim address, none)

def decryptCredential (deps : MonitorSetDeps) (ciphertext expectedFingerprint : JsString) : Except JsString JsString :=
  if expectedFingerprint ≠ [] ∧ expectedFingerprint ≠ deps.fingerprint then
    .error (js
      "The stored credential was encrypted to a different key than this worker now holds. Enter it again in the dashboard.")
  else
    match deps.privateDecrypt ciphertext with
    | .error message => .error (js "The stored credential could not be decrypted: " ++ message)
    | .ok plaintext =>
      match deps.parseJson plaintext with
      | .error _ => .error (js "The decrypted credential was not in the expected format.")
      | .ok .null => .error (js "Cannot read properties of null (reading 'password')")
      | .ok (.object fields) =>
        match property (js "password") fields with
        | some (.string password) =>
          if password = [] then .error (js "The decrypted credential contained no password.") else .ok password
        | _ => .error (js "The decrypted credential contained no password.")
      | .ok _ => .error (js "The decrypted credential contained no password.")

/-- `instanceConfigSchema.parse`, of a configuration with its defaults filled in. -/
def parseInstanceConfig (deps : MonitorSetDeps) (config : InstanceConfig) : Except JsString InstanceConfig :=
  if config.name = [] ∨ config.server = [] then .error (deps.configSchemaMessage config) else .ok config

/-- Why a remote configuration cannot be used. -/
inductive Unusable where
  | awaitingCredential (message : JsString)
  | failed (message : JsString)

def toInstanceConfig (deps : MonitorSetDeps) (remote : WireInstanceConfig) : Except Unusable InstanceConfig :=
  let (server, port) := splitServerAddress deps remote.serverAddress
  let base : InstanceConfig := {
    name := remote.instanceName, server := server, port := port, database := js "msdb"
    user := none, password := none, domain := none
    encrypt := remote.encryptTls, trustServerCertificate := remote.trustServerCertificate
    connectionTimeoutMs := 15000, requestTimeoutMs := 30000 }
  if remote.authMode ≠ js "sql" then (parseInstanceConfig deps base).mapError .failed
  else if remote.credentialCiphertext = [] then
    .error (.awaitingCredential (js "No SQL credential has been supplied for this instance yet."))
  else
    match decryptCredential deps remote.credentialCiphertext remote.credentialKeyFingerprint with
    | .error message => .error (.failed message)
    | .ok password =>
      (parseInstanceConfig deps { base with user := some remote.loginName, password := some password }).mapError .failed

/-- A remote configuration keeps its name. -/
theorem toInstanceConfig_name {deps : MonitorSetDeps} {remote : WireInstanceConfig} {config : InstanceConfig}
    (usable : toInstanceConfig deps remote = .ok config) : config.name = remote.instanceName := by
  have parsed : ∀ base : InstanceConfig, base.name = remote.instanceName →
      (parseInstanceConfig deps base).mapError Unusable.failed = .ok config → config.name = remote.instanceName := by
    intro base named parsed
    unfold parseInstanceConfig at parsed
    split at parsed
    · cases parsed
    · cases parsed
      exact named
  unfold toInstanceConfig at usable
  dsimp only at usable
  split at usable
  · exact parsed _ rfl usable
  · split at usable
    · cases usable
    · split at usable
      · cases usable
      · exact parsed _ rfl usable

/-- What the driver throws. -/
structure ConnectError where
  code : Option JsString
  number : Option Int
  message : JsString

/-- A rejected login, or an unreachable server. -/
def classifyConnectionError (err : ConnectError) : JsString :=
  if err.number = some 18456 ∨ err.code = some (js "ELOGIN") ∨
      js "login failed" <:+: toLowerCase err.message then js "auth_failed"
  else js "unreachable"

/-! ## Calls -/

structure MonitorEntry where
  monitor : Nat
  source : ConfigSource
  signature : JsString

/-- What the operations on the set do between one `await` and the next. -/
inductive MonitorSetCall where
  /-- `this.#entries.get(name)`. -/
  | find (name : JsString)
  /-- `[...this.#entries]`. -/
  | entries
  /-- `[...this.#awaitingFirstConnect]`. -/
  | pending
  /-- `monitor.connectionPool`. -/
  | isConnected (monitor : Nat)
  /-- The start of `monitor.close()`. -/
  | stop (monitor : Nat)
  /-- The end of `monitor.close()`, which may fail, and the removal of its entry. -/
  | discard (name : JsString) (monitor : Nat)
  /-- The end of `monitor.connect()` of a new monitor, and what its outcome makes of the
  entry and of the retries. It tells if there are intervals to poll at; and where it
  fails, if the pool was open by then, which nobody looks at. -/
  | connect (config : InstanceConfig) (source : ConfigSource) (signature : JsString)
  | refreshIdentity (monitor : Nat)
  | sendSnapshot (monitor : Nat)
  | startPolling (monitor : Nat)
  | setIntervals
  /-- Stop retrying if there is nothing to retry. -/
  | restRetries

def MonitorSetAnswer : MonitorSetCall → Type
  | .find _ => Option MonitorEntry
  | .entries => List (JsString × MonitorEntry)
  | .pending => List (JsString × InstanceConfig)
  | .isConnected _ => Bool
  | .stop _ => Unit
  | .discard _ _ => Except JsString Unit
  | .connect _ _ _ => Except (ConnectError × Bool) (Nat × Bool)
  | .refreshIdentity _ => Unit
  | .sendSnapshot _ => Except JsString Unit
  | .startPolling _ => Unit
  | .setIntervals => Unit
  | .restRetries => Unit

/-- Nothing is thrown out of an operation on the set. -/
abbrev MonitorProgram (α : Type) := CallProgram MonitorSetCall MonitorSetAnswer Empty α

def closeMonitor (name : JsString) (monitor : Nat) : MonitorProgram Unit :=
  CallProgram.call (.stop monitor) fun _ => CallProgram.call (.discard name monitor) fun _ => .done ()

/-- Close the monitor that has the name. -/
def closePrevious (name : JsString) : MonitorProgram Unit :=
  CallProgram.call (.find name) fun previous : Option MonitorEntry =>
    match previous with
    | none => .done ()
    | some entry => closeMonitor name entry.monitor

/-- A newly configured instance does not sit idle until the next reconnect, if there are
intervals to poll at. -/
def beginMonitoring (monitor : Nat) (polls : Bool) : MonitorProgram Unit :=
  if polls then
    CallProgram.call (.refreshIdentity monitor) fun _ =>
      CallProgram.call (.sendSnapshot monitor) fun sent : Except JsString Unit =>
        match sent with
        | .error _ => .done ()
        | .ok _ => CallProgram.call (.startPolling monitor) fun _ => .done ()
  else .done ()

def connectMonitor (config : InstanceConfig) (source : ConfigSource) (signature : JsString) :
    MonitorProgram InstanceConfigOutcome :=
  CallProgram.call (.connect config source signature) fun outcome : Except (ConnectError × Bool) (Nat × Bool) =>
    match outcome with
    | .error (err, _) =>
      .done { instanceName := config.name, status := classifyConnectionError err, detail := err.message }
    | .ok (monitor, polls) => do
      beginMonitoring monitor polls
      return { instanceName := config.name, status := js "connected", detail := [] }

def ensure (config : InstanceConfig) (source : ConfigSource) (signature : JsString) :
    MonitorProgram InstanceConfigOutcome := do
  closePrevious config.name
  connectMonitor config source signature

/-- Bring up the instances listed in `worker.yaml`. -/
def addLocal : List InstanceConfig → MonitorProgram (List InstanceConfigOutcome)
  | [] => return []
  | config :: rest => do
    let outcome ← ensure config .file (signatureOf config)
    let others ← addLocal rest
    return outcome :: others

def retryEach : List (JsString × InstanceConfig) → MonitorProgram Unit
  | [] => return ()
  | (_, config) :: rest => do
    let _ ← ensure config .file (signatureOf config)
    retryEach rest

def retryPending : MonitorProgram Unit :=
  CallProgram.call .pending fun waiting : List (JsString × InstanceConfig) => do
    retryEach waiting
    CallProgram.call .restRetries fun _ => .done ()

/-- The entry has the settings, and a connection. -/
def isUnchanged (existing : Option MonitorEntry) (signature : JsString) : MonitorProgram Bool :=
  match existing with
  | none => .done false
  | some entry =>
    if entry.signature = signature then
      CallProgram.call (.isConnected entry.monitor) fun connected : Bool => .done connected
    else .done false

/-- One instance that the control plane asks for. -/
def reconcileInstance (deps : MonitorSetDeps) (remote : WireInstanceConfig) : MonitorProgram InstanceConfigOutcome :=
  CallProgram.call (.find remote.instanceName) fun existing : Option MonitorEntry =>
    if existing.any (·.source = .file) then
      .done {
        instanceName := remote.instanceName
        status := js "connected"
        detail := js "This instance is configured in worker.yaml on the host, which takes precedence." }
    else
      match toInstanceConfig deps remote with
      | .error (.awaitingCredential message) =>
        .done { instanceName := remote.instanceName, status := js "awaiting_credentials", detail := message }
      | .error (.failed message) =>
        .done { instanceName := remote.instanceName, status := js "decrypt_failed", detail := message }
      | .ok config => do
        if ← isUnchanged existing (signatureOf config) then
          return { instanceName := remote.instanceName, status := js "connected", detail := [] }
        else ensure config .remote (signatureOf config)

def reconcileInstances (deps : MonitorSetDeps) : List WireInstanceConfig → MonitorProgram (List InstanceConfigOutcome)
  | [] => return []
  | remote :: rest => do
    let outcome ← reconcileInstance deps remote
    let others ← reconcileInstances deps rest
    return outcome :: others

/-- What the dashboard no longer lists stops being monitored. -/
def removeUnlisted (wanted : List JsString) : List (JsString × MonitorEntry) → MonitorProgram Unit
  | [] => return ()
  | (name, entry) :: rest =>
    if entry.source = .remote ∧ name ∉ wanted then do
      closeMonitor name entry.monitor
      removeUnlisted wanted rest
    else removeUnlisted wanted rest

def reconcileRemote (deps : MonitorSetDeps) (wire : List WireInstanceConfig) :
    MonitorProgram (List InstanceConfigOutcome) := do
  let outcomes ← reconcileInstances deps wire
  CallProgram.call .entries fun entries : List (JsString × MonitorEntry) => do
    removeUnlisted (wire.map (·.instanceName)) entries
    return outcomes

/-- A session that is ready starts polling, of each monitor after its snapshot. -/
def pollMonitors : List (JsString × MonitorEntry) → MonitorProgram Unit
  | [] => return ()
  | (_, entry) :: rest =>
    CallProgram.call (.refreshIdentity entry.monitor) fun _ => CallProgram.call (.sendSnapshot entry.monitor) fun _ =>
      CallProgram.call (.startPolling entry.monitor) fun _ => pollMonitors rest

def onReady : MonitorProgram Unit :=
  CallProgram.call .setIntervals fun _ => CallProgram.call .entries fun entries : List (JsString × MonitorEntry) =>
    pollMonitors entries

inductive MonitorSetOperation where
  | addLocal (configs : List InstanceConfig)
  | reconcileRemote (wire : List WireInstanceConfig)
  /-- A tick of the retry timer. -/
  | retryPending
  /-- A session with the control plane is ready. -/
  | onReady

def MonitorSetOperation.body (deps : MonitorSetDeps) : MonitorSetOperation → MonitorProgram Unit
  | .addLocal configs => do
    let _ ← RemoteSqlAgent.addLocal configs
    return ()
  | .reconcileRemote wire => do
    let _ ← RemoteSqlAgent.reconcileRemote deps wire
    return ()
  | .retryPending => RemoteSqlAgent.retryPending
  | .onReady => RemoteSqlAgent.onReady

/-! ## The set -/

/-- What an `InstanceMonitor` is doing. -/
structure MonitorStatus where
  config : InstanceConfig
  /-- It has a pool. -/
  connected : Bool
  /-- It was told to stop, and not to start again. -/
  stopped : Bool
  /-- Its timers are running. -/
  polling : Bool

/-- The set, and all the monitors that were ever created, by number. -/
structure MonitorSet where
  entries : JsMap MonitorEntry
  awaitingFirstConnect : JsMap InstanceConfig
  /-- The retry timer is running. -/
  retrying : Bool
  /-- Poll intervals were set. -/
  intervals : Bool
  monitors : List MonitorStatus

namespace MonitorSet

def empty : MonitorSet where
  entries := []
  awaitingFirstConnect := []
  retrying := false
  intervals := false
  monitors := []

def update (set : MonitorSet) (monitor : Nat) (change : MonitorStatus → MonitorStatus) : MonitorSet :=
  { set with monitors := set.monitors.modify monitor change }

/-- A monitor that connected takes its name, and is not retried any more. -/
def connected (set : MonitorSet) (config : InstanceConfig) (source : ConfigSource) (signature : JsString) :
    MonitorSet :=
  { set with
    monitors := set.monitors ++ [⟨config, true, false, false⟩]
    awaitingFirstConnect := set.awaitingFirstConnect.delete config.name
    entries := set.entries.set config.name ⟨set.monitors.length, source, signature⟩ }

/-- A monitor that did not connect is dropped, perhaps with an open pool. An instance of
`worker.yaml` is retried. -/
def failed (set : MonitorSet) (config : InstanceConfig) (source : ConfigSource) (opened : Bool) : MonitorSet :=
  { set with
    monitors := set.monitors ++ [⟨config, opened, false, false⟩]
    awaitingFirstConnect :=
      if source = .file then set.awaitingFirstConnect.set config.name config else set.awaitingFirstConnect
    retrying := set.retrying || source = .file }

end MonitorSet

/-- What a call can answer and do. A monitor that is told to stop is one that was created. -/
def MonitorSetCall.Does (set : MonitorSet) : (call : MonitorSetCall) → MonitorSetAnswer call → MonitorSet → Prop
  | .find name, found, after => found = set.entries.get name ∧ after = set
  | .entries, listed, after => listed = set.entries ∧ after = set
  | .pending, listed, after => listed = set.awaitingFirstConnect ∧ after = set
  | .isConnected monitor, answer, after => answer = (set.monitors[monitor]?).any (·.connected) ∧ after = set
  | .stop monitor, _, after => monitor < set.monitors.length ∧ after = set.update monitor fun status =>
    { status with stopped := true, polling := false }
  | .discard name monitor, .ok _, after =>
    after = { set.update monitor fun status => { status with connected := false } with
      entries := set.entries.delete name }
  | .discard name _, .error _, after => after = { set with entries := set.entries.delete name }
  | .connect config source signature, .ok (monitor, polls), after => monitor = set.monitors.length ∧
    polls = set.intervals ∧ after = set.connected config source signature
  | .connect config source _, .error (_, opened), after => after = set.failed config source opened
  | .startPolling monitor, _, after => after = set.update monitor fun status =>
    { status with stopped := false, polling := true }
  | .setIntervals, _, after => after = { set with intervals := true }
  | .restRetries, _, after => after = { set with retrying := set.retrying && !set.awaitingFirstConnect.isEmpty }
  | .refreshIdentity _, _, after => after = set
  | .sendSnapshot _, _, after => after = set

abbrev MonitorSetStep := Taken MonitorSetAnswer MonitorSet MonitorSetOperation

/-! ## A sample worker -/

def sampleDeps : MonitorSetDeps where
  fingerprint := js "f1"
  privateDecrypt _ := .error (js "error:02000079")
  parseJson _ := .error (js "Unexpected end of JSON input")
  number _ := none
  configSchemaMessage _ := js "Invalid input"

/-- The instance as `worker.yaml` has it. -/
def sampleInstance : InstanceConfig where
  name := js "SQL01"
  server := js "localhost"
  port := none
  database := js "msdb"
  user := some (js "agent")
  password := some (js "secret")
  domain := none
  encrypt := true
  trustServerCertificate := false
  connectionTimeoutMs := 15000
  requestTimeoutMs := 30000

/-- The instance as the control plane has it. -/
def sampleRemote : WireInstanceConfig where
  instanceName := js "SQL01"
  serverAddress := js "sql01.example"
  authMode := js "integrated"
  loginName := []
  credentialCiphertext := []
  credentialKeyFingerprint := []
  encryptTls := true
  trustServerCertificate := false

/-- The server can be reached, or cannot; everything else works. -/
def monitorSetAnswer (reachable : Bool) (set : MonitorSet) :
    (call : MonitorSetCall) → Option (MonitorSetAnswer call × MonitorSet)
  | .find name => some (set.entries.get name, set)
  | .entries => some (set.entries, set)
  | .pending => some (set.awaitingFirstConnect, set)
  | .isConnected monitor => some ((set.monitors[monitor]?).any (·.connected), set)
  | .stop monitor =>
    if monitor < set.monitors.length then
      some ((), set.update monitor fun status => { status with stopped := true, polling := false })
    else none
  | .discard name monitor => some (.ok (), { set.update monitor fun status => { status with connected := false } with
      entries := set.entries.delete name })
  | .connect config source signature =>
    if reachable then some (.ok (set.monitors.length, set.intervals), set.connected config source signature)
    else some (.error (⟨some (js "ESOCKET"), none, js "Failed to connect"⟩, false), set.failed config source false)
  | .refreshIdentity _ => some ((), set)
  | .sendSnapshot _ => some (.ok (), set)
  | .startPolling monitor =>
    some ((), set.update monitor fun status => { status with stopped := false, polling := true })
  | .setIntervals => some ((), { set with intervals := true })
  | .restRetries => some ((), { set with retrying := set.retrying && !set.awaitingFirstConnect.isEmpty })

theorem monitorSetAnswer_does {reachable : Bool} {set after : MonitorSet} {call : MonitorSetCall}
    {answer : MonitorSetAnswer call}
    (answered : monitorSetAnswer reachable set call = some (answer, after)) : call.Does set answer after := by
  cases call with
  | stop monitor =>
    obtain ⟨small, same⟩ := Option.ite_none_right_eq_some.mp answered
    cases same
    exact ⟨small, rfl⟩
  | connect config source signature =>
    cases reachable with
    | true =>
      cases answered
      exact ⟨rfl, rfl, rfl⟩
    | false =>
      cases answered
      rfl
  | find | entries | pending | isConnected =>
    cases answered
    exact ⟨rfl, rfl⟩
  | discard | refreshIdentity | sendSnapshot | startPolling | setIntervals | restRetries =>
    cases answered
    rfl

/-- Start an operation, or let one take so many steps while the server can be reached or not. -/
inductive MonitorSetWork where
  | begin (operation : MonitorSetOperation)
  | steps (index count : Nat) (reachable : Bool)

def MonitorSetWork.moves : MonitorSetWork → List (Move MonitorSetAnswer MonitorSet MonitorSetOperation)
  | .begin operation => [.begin operation]
  | .steps index count reachable => List.replicate count (.step index (monitorSetAnswer reachable))

def afterMonitorSetWork (work : List MonitorSetWork) :
    Pool MonitorSetAnswer Empty Unit MonitorSet MonitorSetOperation × List MonitorSetStep :=
  (work.flatMap MonitorSetWork.moves).foldl (Pool.play (MonitorSetOperation.body sampleDeps)) (⟨.empty, []⟩, [])

theorem reaches_afterMonitorSetWork (work : List MonitorSetWork) :
    Reaches MonitorSetCall.Does (MonitorSetOperation.body sampleDeps) .empty (afterMonitorSetWork work).1
      (afterMonitorSetWork work).2 := by
  refine reaches_play _ fun index world member set call answer after answered => ?_
  obtain ⟨part, -, inside⟩ := List.mem_flatMap.mp member
  cases part with
  | begin operation => simp [MonitorSetWork.moves] at inside
  | steps other count reachable =>
    obtain ⟨-, same⟩ := List.mem_replicate.mp inside
    cases same
    exact monitorSetAnswer_does answered

end RemoteSqlAgent
