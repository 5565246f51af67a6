import RemoteSqlAgent.Versioning
import RemoteSqlAgent.Interleaving

/-! Snapshots that arrive in chunks. A chunk only says whether more follow; the
chunks of one snapshot are gathered under its id, and the last one commits what
was gathered. A gathering that is too old is dropped when any chunk arrives. -/
namespace RemoteSqlAgent
open Js CallProgram

/-- The id of a snapshot, a UUID. It has no colon. -/
structure SnapshotId where
  text : JsString
  noColon : 0x3A ∉ text
  deriving DecidableEq

structure Snapshot where
  snapshotId : SnapshotId
  instanceName : JsString
  moreChunks : Bool
  jobs : List JobDefinitionBlob

/-! ## The worker -/

def SNAPSHOT_CHUNK_SIZE : Nat := 25

/-- The slices of a snapshot. There is one even if there are no jobs. -/
def slices (blobs : List JobDefinitionBlob) : List (List JobDefinitionBlob) :=
  let count := (blobs.length + (SNAPSHOT_CHUNK_SIZE - 1)) / SNAPSHOT_CHUNK_SIZE
  let chunks := (List.range count).map fun i =>
    (blobs.drop (i * SNAPSHOT_CHUNK_SIZE)).take SNAPSHOT_CHUNK_SIZE
  if chunks.length = 0 then [[]] else chunks

/-- The chunks a snapshot is sent as. -/
def snapshotChunks (instanceName : JsString) (snapshotId : SnapshotId) (blobs : List JobDefinitionBlob) :
    List Snapshot :=
  (slices blobs).mapIdx fun index chunk =>
    { snapshotId := snapshotId
      instanceName := instanceName
      moreChunks := index < (slices blobs).length - 1
      jobs := chunk }

/-! ## Transactions of the control plane -/

/-- The transactions on the tables of jobs. -/
inductive JobCall where
  | recordJobVersion (input : RecordVersionInput)
  | markJobDeleted (instanceId jobUuid : JsString)
  | markJobsMissingFromSnapshot (instanceId : JsString) (seenJobUuids : List JsString)

/-- What a transaction answers. One that fails changes nothing and throws. -/
def JobAnswer : JobCall → Type
  | .recordJobVersion _ => Except JsString RecordVersionResult
  | .markJobDeleted _ _ => Except JsString Unit
  | .markJobsMissingFromSnapshot _ _ => Except JsString Unit

/-- What a transaction does to the tables. -/
def JobCall.Does (runtime : Runtime) (tables : JobTables) : (call : JobCall) → JobAnswer call → JobTables → Prop
  | .recordJobVersion _, .error _, after => after = tables
  | .recordJobVersion input, .ok result, after =>
    ∃ now, tables.recordJobVersion runtime input now = .ok (after, result)
  | .markJobDeleted _ _, .error _, after => after = tables
  | .markJobDeleted instanceId jobUuid, .ok _, after => ∃ now, after = tables.markJobDeleted instanceId jobUuid now
  | .markJobsMissingFromSnapshot _ _, .error _, after => after = tables
  | .markJobsMissingFromSnapshot instanceId seenJobUuids, .ok _, after =>
    ∃ now, after = tables.markJobsMissingFromSnapshot instanceId seenJobUuids now

/-- The transaction can turn a job that is there into a deleted one. -/
def JobCall.SoftDeletes (runtime : Runtime) (call : JobCall) (key : JobKey) : Prop :=
  ∃ tables answer after before row, call.Does runtime tables answer after ∧
    tables.jobs key = some before ∧ before.deletedAt = none ∧
    after.jobs key = some row ∧ row.deletedAt.isSome = true

abbrev JobProgram (α : Type) := CallProgram JobCall JobAnswer JsString α

/-- An answer, or what it throws. -/
def orThrow {Call : Type} {Answer : Call → Type} {α : Type} : Except JsString α → CallProgram Call Answer JsString α
  | .error message => .throw message
  | .ok value => .done value

theorem obeys_orThrow {Call : Type} {Answer : Call → Type} {α : Type} {rule : List (Exchange Answer) → Call → Prop}
    {heard : List (Exchange Answer)} (answer : Except JsString α) :
    Obeys rule heard (orThrow answer : CallProgram Call Answer JsString α) := by
  cases answer with
  | error message => exact .throw message
  | ok value => exact .done value

def hashCanonical (crypto : Crypto) (canonicalJson : JsString) : JsString := js (crypto.sha256 (utf8 canonicalJson))

/-- The hash the worker sent is never trusted. -/
def verifyBlobHash (crypto : Crypto) (blob : JobDefinitionBlob) : JobDefinitionBlob :=
  { blob with definitionHash := hashCanonical crypto blob.canonicalJson }

/-- What a snapshot records for a job: what is on the box right now. -/
def snapshotInput (crypto : Crypto) (instanceId : JsString) (blob : JobDefinitionBlob) : RecordVersionInput where
  instanceId := instanceId
  jobUuid := blob.jobUuid
  canonicalJson := blob.canonicalJson
  definitionHash := (verifyBlobHash crypto blob).definitionHash
  origin := .local
  commandId := none
  createdBy := none
  detectedAt := none

/-- Commit a snapshot. -/
def commitSnapshot (crypto : Crypto) (instanceId : JsString) (jobs : List JobDefinitionBlob) : JobProgram Unit := do
  jobs.forM fun blob => do
    let _ ← CallProgram.call (.recordJobVersion (snapshotInput crypto instanceId blob)) orThrow
  CallProgram.call (.markJobsMissingFromSnapshot instanceId (jobs.map (·.jobUuid))) orThrow

/-! ## Gathering chunks -/

structure PendingSnapshot where
  instanceName : JsString
  jobs : List JobDefinitionBlob
  startedAt : Int

abbrev PendingSnapshots := JsString → Option PendingSnapshot

def SNAPSHOT_ABANDON_MS : Int := 10 * 60 * 1000

/-- Drop snapshots that stopped arriving. -/
def sweepAbandonedSnapshots (pending : PendingSnapshots) (now : Int) : PendingSnapshots :=
  fun key => (pending key).filter fun acc => acc.startedAt > now - SNAPSHOT_ABANDON_MS

def Snapshot.key (snapshot : Snapshot) : JsString :=
  snapshot.instanceName ++ js ":" ++ snapshot.snapshotId.text

/-- A chunk, with the readings of the clock by the sweep and, if this is the
first chunk, for its start. -/
structure Arrival where
  snapshot : Snapshot
  sweptAt : Int
  startedAt : Int

/-- Sweep, and add the chunk to what was gathered of its snapshot. -/
def gatherChunk (pending : PendingSnapshots) (arrival : Arrival) : PendingSnapshots :=
  let snapshot := arrival.snapshot
  let pending := sweepAbandonedSnapshots pending arrival.sweptAt
  let acc := (pending snapshot.key).getD {
    instanceName := snapshot.instanceName
    jobs := []
    startedAt := arrival.startedAt }
  Function.update pending snapshot.key (some { acc with jobs := acc.jobs ++ snapshot.jobs })

/-- Take in a chunk. The last one gives what is to be committed. -/
def handleSnapshotChunk (pending : PendingSnapshots) (arrival : Arrival) :
    PendingSnapshots × Option PendingSnapshot :=
  let pending := gatherChunk pending arrival
  if arrival.snapshot.moreChunks then (pending, none)
  else (Function.update pending arrival.snapshot.key none, pending arrival.snapshot.key)

/-! ## A session -/

/-- What a session keeps of its instances and their snapshots. -/
structure SnapshotSession where
  instanceIds : JsString → Option JsString
  pending : PendingSnapshots

namespace SnapshotSession

def start : SnapshotSession where
  instanceIds _ := none
  pending _ := none

/-- The ids of instances that a hello or a heartbeat declares. -/
def declareInstances (session : SnapshotSession) (ids : List (JsString × JsString)) : SnapshotSession :=
  { session with instanceIds := ids.foldl (fun map id => Function.update map id.1 (some id.2)) session.instanceIds }

/-- A snapshot that is committed, with what its last chunk says. -/
structure Commit where
  instanceId : JsString
  snapshot : Snapshot
  jobs : List JobDefinitionBlob

inductive Event where
  | declared (ids : List (JsString × JsString))
  | chunk (arrival : Arrival)

/-- A chunk for an instance that was not declared is ignored. -/
def on (session : SnapshotSession) : Event → SnapshotSession × Option Commit
  | .declared ids => (session.declareInstances ids, none)
  | .chunk arrival =>
    match session.instanceIds arrival.snapshot.instanceName with
    | none => (session, none)
    | some instanceId =>
      let (pending, committed) := handleSnapshotChunk session.pending arrival
      ({ session with pending := pending },
        committed.map fun acc : PendingSnapshot => ⟨instanceId, arrival.snapshot, acc.jobs⟩)

/-- The session after some events. -/
def after (session : SnapshotSession) (events : List Event) : SnapshotSession :=
  events.foldl (fun session event => (session.on event).1) session

/-- What is committed over some events. -/
def commits : SnapshotSession → List Event → List Commit
  | _, [] => []
  | session, event :: rest => (session.on event).2.toList ++ commits (session.on event).1 rest

/-- The readings of the clock by the sweeps over some events. -/
def sweeps : SnapshotSession → List Event → List Int
  | _, [] => []
  | session, event :: rest =>
    let readings := match event with
      | .declared _ => []
      | .chunk arrival =>
        if (session.instanceIds arrival.snapshot.instanceName).isSome then [arrival.sweptAt] else []
    readings ++ sweeps (session.on event).1 rest

end SnapshotSession

end RemoteSqlAgent
