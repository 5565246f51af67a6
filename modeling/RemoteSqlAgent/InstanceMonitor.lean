import RemoteSqlAgent.Hub
import RemoteSqlAgent.DatedHistory

/-! The monitor of an instance. A snapshot reports all the jobs in msdb, a poll those
that have changed. A poll looks at the jobs only if their fingerprint is not what it
was. Polls are serialised, with each other and with the handling of commands; the
snapshot of a session that begins is not. -/
namespace RemoteSqlAgent
open Js CallProgram DatedHistory

/-! ## msdb -/

deriving instance DecidableEq for JobRecord

/-- A job in msdb. The worker does not see by whom it was changed last. -/
structure MsdbJob extends JobRecord where
  /-- The command whose statements made the job as it is, if it was one. -/
  madeBy : Option JsString
  deriving DecidableEq

structure Msdb where
  jobs : List MsdbJob
  distinct : (jobs.map (·.jobUuid)).Nodup

structure JobsFingerprint where
  jobCount : Nat
  maxDateModified : Option Int
  deriving DecidableEq

def Msdb.fingerprint (msdb : Msdb) : JobsFingerprint where
  jobCount := msdb.jobs.length
  maxDateModified := latest (·.dateModified) msdb.jobs

/-! ## Attribution -/

structure PendingAttribution where
  commandId : JsString
  setAt : Int

/-- The commands that made the changes which polls have still to report. -/
abbrev PendingAttributionMap := JsMap PendingAttribution

def PENDING_ATTRIBUTION_TTL_MS : Int := 10 * 60 * 1000

namespace PendingAttributionMap

def sweep (entries : PendingAttributionMap) (now : Int) : PendingAttributionMap :=
  entries.filter fun entry => entry.2.setAt > now - PENDING_ATTRIBUTION_TTL_MS

def set (entries : PendingAttributionMap) (jobUuid commandId : JsString) (now : Int) : PendingAttributionMap :=
  JsMap.set (entries.sweep now) jobUuid { commandId := commandId, setAt := now }

def get (entries : PendingAttributionMap) (jobUuid : JsString) : Option JsString :=
  (JsMap.get entries jobUuid).map (·.commandId)

end PendingAttributionMap

/-! ## What the monitor keeps and sends -/

structure InstanceMonitor where
  instanceName : JsString
  definitionHashes : JsMap JsString
  lastFingerprint : Option JobsFingerprint
  pendingAttribution : PendingAttributionMap

/-- Attribute the next change that is seen of a job to the command that caused it. -/
def InstanceMonitor.noteAppliedCommand (monitor : InstanceMonitor) (jobUuid commandId : JsString) (now : Int) :
    InstanceMonitor :=
  { monitor with pendingAttribution := monitor.pendingAttribution.set (toLowerCase jobUuid) commandId now }

/-- The jobs whose definitions are the work of commands. -/
def commandMade (jobs : List MsdbJob) : List JsString := (jobs.filter (·.madeBy.isSome)).map (·.jobUuid)

/-- A message that the live stream accepted, with those of its jobs whose definitions
are the work of commands. -/
structure Emission where
  message : HubMessage
  made : List JsString

/-- The monitor, what it has sent, and how often a message was refused. -/
structure Reporting where
  monitor : InstanceMonitor
  sent : List Emission
  refusals : Nat

section
variable (runtime : Runtime) (accepts : HubMessage → Bool)

def toBlob (job : JobRecord) : Except JsString JobDefinitionBlob :=
  (canonicaliseJobWithHash runtime job.definition.toValue).map fun canonical => {
    jobUuid := job.jobUuid
    canonicalJson := canonical.canonicalJson
    definitionHash := canonical.hash
    dateModified := toTimestamp job.dateModified }

def Reporting.emit (reporting : Reporting) (emission : Emission) : Reporting :=
  if accepts emission.message then { reporting with sent := reporting.sent ++ [emission] }
  else { reporting with refusals := reporting.refusals + 1 }

/-- The change of a job, attributed to the command that made it. -/
def InstanceMonitor.delta (monitor : InstanceMonitor) (blob : JobDefinitionBlob) : HubMessage := .definition {
  instanceName := monitor.instanceName
  job := some blob
  deleted := false
  appliedCommandId := (monitor.pendingAttribution.get blob.jobUuid).getD [] }

/-- Report a job if it has changed. The cache is advanced only if the message is
away, so that the next poll tries again. -/
def pollJob (reporting : Reporting) (job : MsdbJob) (blob : JobDefinitionBlob) : Reporting :=
  let monitor := reporting.monitor
  if monitor.definitionHashes.get job.jobUuid = some blob.definitionHash then reporting
  else
    let reporting := reporting.emit accepts { message := monitor.delta blob, made := commandMade [job] }
    if ¬ accepts (monitor.delta blob) then reporting
    else
      { reporting with monitor := { monitor with
          pendingAttribution := JsMap.delete monitor.pendingAttribution job.jobUuid
          definitionHashes := monitor.definitionHashes.set job.jobUuid blob.definitionHash } }

/-- Report what has changed of the jobs, up to one that does not canonicalise. -/
def pollEach : List MsdbJob → Reporting → Reporting × Option JsString
  | [], reporting => (reporting, none)
  | job :: rest, reporting =>
    match toBlob runtime job.toJobRecord with
    | .error message => (reporting, some message)
    | .ok blob => pollEach rest (pollJob accepts reporting job blob)

/-- How the synchronous part of a poll ends. If a job is gone, a snapshot follows. -/
inductive PollEnd where
  | recorded
  | vanished
  | threw (message : JsString)
  deriving DecidableEq

/-- The part of a poll that follows on the reading of the jobs. -/
def pollJobs (fingerprint : JobsFingerprint) (jobs : List MsdbJob) (reporting : Reporting) : Reporting × PollEnd :=
  let (reporting, thrown) := pollEach runtime accepts jobs reporting
  match thrown with
  | some message => (reporting, .threw message)
  | none =>
    let seen := jobs.map (·.jobUuid)
    let vanished := reporting.monitor.definitionHashes.keys.filter fun uuid => uuid ∉ seen
    if vanished ≠ [] then (reporting, .vanished)
    else ({ reporting with monitor := { reporting.monitor with lastFingerprint := some fingerprint } }, .recorded)

/-- Keep the hashes of a snapshot, so that the next poll compares with them. -/
def Reporting.storeHashes (reporting : Reporting) (blobs : List JobDefinitionBlob) : Reporting :=
  { reporting with monitor := { reporting.monitor with
      definitionHashes := JsMap.ofEntries (blobs.map fun blob => (blob.jobUuid, blob.definitionHash)) } }

def Reporting.emitChunks (reporting : Reporting) (made : List JsString) (chunks : List Snapshot) : Reporting :=
  chunks.foldl (fun reporting chunk => reporting.emit accepts { message := .snapshot chunk, made := made }) reporting

/-- The part of a snapshot that follows on the reading of the fingerprint. -/
def Reporting.emitSnapshot (reporting : Reporting) (fingerprint : JobsFingerprint) (snapshotId : SnapshotId)
    (jobs : List MsdbJob) (blobs : List JobDefinitionBlob) : Reporting :=
  let chunks := snapshotChunks reporting.monitor.instanceName snapshotId blobs
  let reporting := { reporting with monitor := { reporting.monitor with lastFingerprint := some fingerprint } }
  reporting.emitChunks accepts (commandMade jobs) chunks

end

/-! ## Snapshots and polls -/

/-- So many edits and refusals have there been. -/
structure Moment where
  edits : Nat
  refusals : Nat
  deriving DecidableEq

/-- A fingerprint, and the moment at which msdb had it. -/
structure Reading where
  edits : Nat
  fingerprint : JobsFingerprint
  deriving DecidableEq

/-- What the monitor does between two `await`s, and what others do to msdb. -/
inductive MonitorCall where
  /-- Wait for one's turn. -/
  | acquire
  | release
  /-- Is there a pool? -/
  | connected
  | readJobsFingerprint
  /-- Send the queries for the jobs. Their rows come at different moments. -/
  | queryJobs
  /-- The jobs, from queries that were sent at a moment. -/
  | readJobs (since : Nat)
  | sameFingerprint (fingerprint : JobsFingerprint)
  | pollJobs (fingerprint : JobsFingerprint) (jobs : List MsdbJob)
  | randomUUID
  /-- Store the hashes of a snapshot. It is told the number of the storing. -/
  | storeHashes (blobs : List JobDefinitionBlob)
  | emitSnapshot (storing : Nat) (fingerprint : JobsFingerprint) (snapshotId : SnapshotId)
      (jobs : List MsdbJob) (blobs : List JobDefinitionBlob)
  /-- Somebody changes msdb. -/
  | edit (msdb : Msdb)

def MonitorAnswer : MonitorCall → Type
  | .acquire => Moment
  | .release => Unit
  | .connected => Bool
  | .readJobsFingerprint => Except JsString Reading
  | .queryJobs => Nat
  | .readJobs _ => Except JsString (List MsdbJob)
  | .sameFingerprint _ => Bool
  | .pollJobs _ _ => PollEnd
  | .randomUUID => SnapshotId
  | .storeHashes _ => Nat
  | .emitSnapshot _ _ _ _ _ => Unit
  | .edit _ => Unit

abbrev Monitoring (α : Type) := CallProgram MonitorCall MonitorAnswer JsString α

section
variable (runtime : Runtime)

/-- Run with polls held off. -/
def runExclusive {α : Type} (fn : Monitoring α) : Monitoring α :=
  CallProgram.call .acquire fun _ => do
  let ended ← attempt fn
  CallProgram.call .release fun _ => orThrow ended

/-- Upload all the jobs. -/
def sendSnapshot : Monitoring Unit :=
  CallProgram.call .connected fun connected : Bool =>
  if ¬ connected then return ()
  else
    CallProgram.call .queryJobs fun since : Nat => do
    let jobs : List MsdbJob ← CallProgram.call (.readJobs since) orThrow
    CallProgram.call .randomUUID fun snapshotId : SnapshotId => do
    let blobs ← orThrow (jobs.mapM fun job => toBlob runtime job.toJobRecord)
    CallProgram.call (.storeHashes blobs) fun storing : Nat => do
    let reading : Reading ← CallProgram.call .readJobsFingerprint orThrow
    CallProgram.call (.emitSnapshot storing reading.fingerprint snapshotId jobs blobs) fun _ => return ()

def pollDefinitionsNow : Monitoring Unit :=
  CallProgram.call .connected fun connected : Bool =>
  if ¬ connected then return ()
  else do
    let reading : Reading ← CallProgram.call .readJobsFingerprint orThrow
    CallProgram.call (.sameFingerprint reading.fingerprint) fun same : Bool =>
    if same then return ()
    else
      CallProgram.call .queryJobs fun since : Nat => do
      let jobs : List MsdbJob ← CallProgram.call (.readJobs since) orThrow
      CallProgram.call (.pollJobs reading.fingerprint jobs) fun ended : PollEnd =>
      match ended with
      | .threw message => .throw message
      | .vanished => sendSnapshot runtime
      | .recorded => return ()

def pollDefinitions : Monitoring Unit := runExclusive (pollDefinitionsNow runtime)

inductive MonitorOperation where
  | pollDefinitions
  | sendSnapshot
  | edit (msdb : Msdb)

def MonitorOperation.body : MonitorOperation → Monitoring Unit
  | .pollDefinitions => RemoteSqlAgent.pollDefinitions runtime
  | .sendSnapshot => RemoteSqlAgent.sendSnapshot runtime
  | .edit msdb => CallProgram.call (.edit msdb) fun _ => return ()

end

/-! ## The worker and msdb -/

/-- An instance and its monitor. -/
structure MonitorSite extends Reporting where
  /-- What msdb was before each edit. -/
  past : List Msdb
  msdb : Msdb
  /-- Somebody runs exclusively. -/
  exclusive : Bool
  /-- So many snapshots have stored their hashes. -/
  storings : Nat
  /-- The storing of hashes that was the last, unless its snapshot was sent. -/
  unsent : Option Nat

namespace MonitorSite

def history (site : MonitorSite) : List (List MsdbJob) := site.past.map (·.jobs)

/-- The job has been in msdb as it is since a moment. -/
def Stands (site : MonitorSite) (since : Nat) (job : MsdbJob) : Prop :=
  DatedHistory.Stands site.history site.msdb.jobs since job

def edit (site : MonitorSite) (msdb : Msdb) : MonitorSite :=
  { site with past := site.past ++ [site.msdb], msdb := msdb }

end MonitorSite

/-- What a call can answer and do. A job that nobody changes while the jobs are read
is read as it is, and each job that is read was there at some moment. -/
def MonitorCall.Does (runtime : Runtime) (site : MonitorSite) : (call : MonitorCall) → MonitorAnswer call →
    MonitorSite → Prop
  | .acquire, moment, after =>
    site.exclusive = false ∧ moment = { edits := site.past.length, refusals := site.refusals } ∧
    after = { site with exclusive := true }
  | .release, _, after => after = { site with exclusive := false }
  | .readJobsFingerprint, .ok reading, after =>
    reading = { edits := site.past.length, fingerprint := site.msdb.fingerprint } ∧ after = site
  | .queryJobs, since, after => since = site.past.length ∧ after = site
  | .readJobs since, .ok jobs, after => (jobs.map (·.jobUuid)).Nodup ∧ (∀ job, site.Stands since job → job ∈ jobs) ∧
    (∀ job ∈ jobs, ∃ collection ∈ (site.history ++ [site.msdb.jobs]).drop since,
      job.jobUuid ∈ collection.map (·.jobUuid)) ∧ after = site
  | .sameFingerprint fingerprint, same, after =>
    same = decide (site.monitor.lastFingerprint = some fingerprint) ∧ after = site
  | .pollJobs fingerprint jobs, ended, after => ∃ accepts,
    ended = (RemoteSqlAgent.pollJobs runtime accepts fingerprint jobs site.toReporting).2 ∧
      after = { site with
        toReporting := (RemoteSqlAgent.pollJobs runtime accepts fingerprint jobs site.toReporting).1 }
  | .storeHashes blobs, storing, after => storing = site.storings ∧ after = { site with
      toReporting := site.toReporting.storeHashes blobs
      storings := site.storings + 1
      unsent := some site.storings }
  | .emitSnapshot storing fingerprint snapshotId jobs blobs, _, after => ∃ accepts, after = { site with
      toReporting := site.toReporting.emitSnapshot accepts fingerprint snapshotId jobs blobs
      unsent := if site.unsent = some storing then none else site.unsent }
  | .edit msdb, _, after => (∀ job ∈ msdb.jobs, job ∉ site.msdb.jobs → job.madeBy = none) ∧ after = site.edit msdb
  | _, _, after => after = site

abbrev MonitorStep := Taken MonitorAnswer MonitorSite MonitorOperation

end RemoteSqlAgent
