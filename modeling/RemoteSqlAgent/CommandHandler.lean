import RemoteSqlAgent.AgentRepo
import RemoteSqlAgent.AgentWriter
import RemoteSqlAgent.Capabilities
import RemoteSqlAgent.Outbox
import RemoteSqlAgent.Signing

/-! Applying commands on the worker. Signature, freshness, capability and
idempotency are checked before anything touches msdb; the conflict check reads
msdb and comes first in what is applied. -/
namespace RemoteSqlAgent
open Js CallProgram

/-- What the worker takes from its platform. -/
structure Runtime where
  crypto : Crypto
  /-- `JSON.parse`, or the message of its `SyntaxError`. -/
  parseJson : JsString → Except JsString JsValue
  /-- The message of the error at a value that is no job definition. -/
  jobSchemaMessage : JsValue → JsString

structure JobDefinitionBlob where
  jobUuid : JsString
  canonicalJson : JsString
  definitionHash : JsString
  dateModified : Timestamp
  deriving DecidableEq

structure ApplyOutcome where
  success : Bool
  errorCode : JsString
  errorDetail : JsString
  sqlErrorNumber : Int
  resultingJob : Option JobDefinitionBlob
  deriving DecidableEq

def ok (resultingJob : Option JobDefinitionBlob) : ApplyOutcome where
  success := true
  errorCode := []
  errorDetail := []
  sqlErrorNumber := 0
  resultingJob := resultingJob

def refuse (code detail : JsString) : ApplyOutcome where
  success := false
  errorCode := code
  errorDetail := detail
  sqlErrorNumber := 0
  resultingJob := none

def sqlFailure (message : JsString) (sqlErrorNumber : Int) : ApplyOutcome where
  success := false
  errorCode := js "SqlError"
  errorDetail := message
  sqlErrorNumber := sqlErrorNumber
  resultingJob := none

def toTimestamp (ms : Int) : Timestamp :=
  let seconds := ms / 1000
  { seconds := seconds, nanos := (ms - seconds * 1000) * 1000000 }

/-! ## Definitions -/

/-- The position in the message of a `SyntaxError`, the part that does not quote
the input. -/
def atPosition : JsString → Option JsString
  | [] => none
  | unit :: rest =>
    let lead := js " at position "
    let number := ((unit :: rest).drop lead.length).takeWhile isDigit
    if lead.isPrefixOf (unit :: rest) ∧ number ≠ [] then some (lead ++ number) else atPosition rest

section
variable (runtime : Runtime)

/-- Parse canonical JSON back into a definition, or the message of the error. -/
def parseJobDefinition (canonicalJson : JsString) : Except JsString JobDefinition :=
  match runtime.parseJson canonicalJson with
  | .error message =>
    .error (js "Job definition is not valid JSON" ++ (atPosition message).getD [] ++ js ".")
  | .ok value =>
    match jobDefinitionSchema value with
    | none => .error (runtime.jobSchemaMessage value)
    | some definition => .ok definition

structure CanonicalResult where
  definition : JobDefinition
  canonicalJson : JsString
  hash : JsString

/-- Validate, normalise, serialise and hash, or the message of the error. -/
def canonicaliseJobWithHash (job : JsValue) : Except JsString CanonicalResult :=
  match jobDefinitionSchema job with
  | none => .error (runtime.jobSchemaMessage job)
  | some parsed =>
    let normalised := normaliseJobDefinition parsed
    match canonicalJsonStringify normalised.toValue with
    | .error message => .error message
    | .ok canonicalJson => .ok {
        definition := normalised
        canonicalJson := canonicalJson
        hash := js (runtime.crypto.sha256 (utf8 canonicalJson)) }

/-! ## Applying -/

def readJobBlob (jobUuid : JsString) : Sql (Option JobDefinitionBlob) := do
  let result ← readJobs
  match result.jobs.find? fun job => job.jobUuid = toLowerCase jobUuid with
  | none => return none
  | some job =>
    match canonicaliseJobWithHash runtime job.definition.toValue with
    | .error message => .throw (.other message)
    | .ok canonical => return some {
        jobUuid := job.jobUuid
        canonicalJson := canonical.canonicalJson
        definitionHash := canonical.hash
        dateModified := toTimestamp job.dateModified }

/-- Refuse if live state has moved since the edit was started. A job that is gone
cannot be overwritten. -/
def checkConflict (jobUuid baseDefinitionHash : JsString) (allowOverwrite : Bool) :
    Sql (Option ApplyOutcome) := do
  if baseDefinitionHash = [] then return none
  match ← readJobBlob runtime jobUuid with
  | none => return some (refuse (js "Conflict")
      (js "That job no longer exists on this instance, so there is nothing to overwrite. " ++
        js "Someone deleted it in SSMS. Create it as a new job if you still want it — " ++
        js "it will get a new id, and its history will start fresh."))
  | some blob =>
    if allowOverwrite then return none
    if blob.definitionHash ≠ baseDefinitionHash then
      return some {
        success := false
        errorCode := js "Conflict"
        errorDetail := js "The job has changed on the server since this edit was started. " ++
          js "Review the differences and choose whether to rebase or overwrite."
        sqlErrorNumber := 0
        resultingJob := some blob }
    return none

/-- Run what follows unless there is a conflict. -/
def unlessConflict (conflict : Option ApplyOutcome) (after : Sql ApplyOutcome) : Sql ApplyOutcome :=
  match conflict with
  | some outcome => pure outcome
  | none => after

def applyToggleJob (toggleJob : ToggleJob) : Sql ApplyOutcome := do
  let conflict ← checkConflict runtime toggleJob.jobUuid toggleJob.baseDefinitionHash false
  unlessConflict conflict do
    RemoteSqlAgent.toggleJob toggleJob.jobUuid toggleJob.enabled
    return ok (← readJobBlob runtime toggleJob.jobUuid)

/-- A job that is named may have moved; one that is to be created cannot. -/
def upsertConflict (upsertJob : UpsertJob) : Sql (Option ApplyOutcome) :=
  if upsertJob.jobUuid ≠ [] then
    checkConflict runtime upsertJob.jobUuid upsertJob.baseDefinitionHash upsertJob.allowOverwrite
  else pure none

def applyUpsertJob (upsertJob : UpsertJob) : Sql ApplyOutcome :=
  match parseJobDefinition runtime upsertJob.canonicalJson with
  | .error message => pure (refuse (js "Invalid")
      (js "The job definition failed validation on the worker: " ++ message))
  | .ok definition => do
    let conflict ← upsertConflict runtime upsertJob
    unlessConflict conflict do
      let result ← RemoteSqlAgent.upsertJob upsertJob.jobUuid definition
      return ok (← readJobBlob runtime result.jobUuid)

def applyDeleteJob (deleteJob : DeleteJob) : Sql ApplyOutcome := do
  let conflict ← checkConflict runtime deleteJob.jobUuid deleteJob.baseDefinitionHash false
  unlessConflict conflict do
    RemoteSqlAgent.deleteJob deleteJob.jobUuid
    return ok none

/-- A definition of another kind than a job: parse it, validate it, write it. -/
def applyDefinition {Definition : Type} (noun : String) (schema : JsValue → Option Definition)
    (write : Definition → Sql Unit) (canonicalJson : JsString) : Sql ApplyOutcome :=
  match runtime.parseJson canonicalJson with
  | .error message => pure (refuse (js "Invalid")
      (js "The " ++ js noun ++ js " definition was not valid JSON: " ++ message))
  | .ok json =>
    match schema json with
    | none =>
      pure (refuse (js "Invalid") (js "The " ++ js noun ++ js " definition failed validation."))
    | some definition => do
      write definition
      return ok none

/-- A refusal by msdb is an outcome here, not an error. -/
def applySetJobWriteAllowed (setJobWriteAllowed : SetJobWriteAllowed) : Sql ApplyOutcome :=
  CallProgram.tryCatch (do
      RemoteSqlAgent.setJobWriteAllowed setJobWriteAllowed.jobName setJobWriteAllowed.allowed
      return ok none)
    fun
    | .sqlApply message sqlErrorNumber => return sqlFailure message sqlErrorNumber
    | failure => .throw failure

def apply (command : Command) : Sql ApplyOutcome :=
  match command.payload with
  | none => pure (refuse (js "Invalid") (js "The command carried no payload."))
  | some (.toggleJob toggleJob) => applyToggleJob runtime toggleJob
  | some (.runJob runJob) => do
    -- No conflict check: starting a job is about the job as it is now.
    startJob runJob.jobUuid (nullIfEmpty (some runJob.stepName))
    return ok none
  | some (.stopJob stopJob) => do
    RemoteSqlAgent.stopJob stopJob.jobUuid
    return ok none
  | some (.upsertJob upsertJob) => applyUpsertJob runtime upsertJob
  | some (.deleteJob deleteJob) => applyDeleteJob runtime deleteJob
  | some (.upsertSchedule upsertSchedule) =>
    applyDefinition runtime "schedule" scheduleDefinitionSchema RemoteSqlAgent.upsertSchedule
      upsertSchedule.canonicalJson
  | some (.deleteSchedule deleteSchedule) => do
    RemoteSqlAgent.deleteSchedule deleteSchedule.scheduleName
    return ok none
  | some (.upsertOperator upsertOperator) =>
    applyDefinition runtime "operator" operatorDefinitionSchema RemoteSqlAgent.upsertOperator
      upsertOperator.canonicalJson
  | some (.deleteOperator _) => pure (refuse (js "Unsupported")
      (js "Deleting an operator by id is not supported; delete it by name from SSMS."))
  | some (.setJobWriteAllowed setJobWriteAllowed) => applySetJobWriteAllowed setJobWriteAllowed

/-! ## The gates -/

structure CommandContext where
  capabilities : List Capability
  commandSigningPublicKey : JsString

/-- The readings of the clock while one command is handled. Heartbeats prune the
outbox between the gates and the record. -/
structure Clock where
  checkedAt : Int
  heartbeats : List Int
  recordedAt : Int
  repliedAt : Int

/-- What the signing code throws. Node's message for a length that does not fit
is given by its code. -/
def signingFailure : SigningError → Failure
  | .outOfRange _ => .other (js "ERR_OUT_OF_RANGE")
  | .unsupported message => .other message

/-- The outcome of a command that was applied before: what was recorded. -/
def replay (success : Bool) (result : Option JsString) : ApplyOutcome where
  success := success
  errorCode := if success then [] else result.getD (js "Unknown")
  errorDetail :=
    if success then js "Already applied."
    else js "Already attempted, and it failed: " ++ result.getD (js "no detail recorded") ++ js "."
  sqlErrorNumber := 0
  resultingJob := none

/-- The gates that come before applying, in their order. With none of them
closed there is no outcome yet. -/
def gates (command : Command) (context : CommandContext) (outbox : Outbox) (now : Int) :
    Option (Except Failure ApplyOutcome) :=
  let kind := commandKind command.toObject
  if context.commandSigningPublicKey = [] then
    some (.ok (refuse (js "NoSigningKey") (js "This worker has no command signing key, so it cannot " ++
      js "verify that the control plane issued this command.")))
  else
    match verifyCommandSignature runtime.crypto command.toObject context.commandSigningPublicKey with
    | .error error => some (.error (signingFailure error))
    | .ok false => some (.ok (refuse (js "BadSignature")
        (js "The command signature did not verify against the control plane public key.")))
    | .ok true =>
      let fresh := (fromTimestamp command.issuedAt).any fun issuedAt => isCommandFresh issuedAt now
      if !fresh then
        some (.ok (refuse (js "Stale")
          (js "The command is outside the replay window. Re-issue it from the dashboard.")))
      else
        match property kind COMMAND_CAPABILITY with
        | none => some (.ok (refuse (js "UnknownCommand")
            (js "This worker version does not implement \"" ++ kind ++ js "\".")))
        | some required =>
          if required ∉ context.capabilities then
            some (.ok (refuse (js "CapabilityDenied")
              (js "This worker is not permitted to " ++ required.text ++
                js ". Its effective capabilities are: " ++
                List.intercalate (js ", ") (context.capabilities.map Capability.text) ++
                js ". Raise maxCapability in worker.yaml if that is intended.")))
          else
            match outbox.appliedCommandOutcome command.id with
            | some (success, result) => some (.ok (replay success result))
            | none => none

/-- What is reported and recorded once applying has ended. Only a failure that is
not msdb's leaves no record. -/
def conclude (command : Command) (clock : Clock) (outbox : Outbox) (applied : Except Failure ApplyOutcome) :
    Except Failure ApplyOutcome × Outbox :=
  let outbox := outbox.afterHeartbeats clock.heartbeats
  match applied with
  | .ok outcome =>
    (.ok outcome, outbox.recordAppliedCommand command.id outcome.success
      (nullIfEmpty (some outcome.errorCode)) clock.recordedAt)
  | .error (.sqlApply message sqlErrorNumber) =>
    -- It may have succeeded in part, so it is not tried again.
    (.ok (sqlFailure message sqlErrorNumber),
      outbox.recordAppliedCommand command.id false (some (js "SqlError")) clock.recordedAt)
  | .error failure => (.error failure, outbox)

/-- The outcome or what is thrown, and the outbox afterwards. -/
def evaluateAndApply (command : Command) (context : CommandContext) (clock : Clock) (outbox : Outbox) :
    Sql (Except Failure ApplyOutcome × Outbox) :=
  match gates runtime command context outbox clock.checkedAt with
  | some early => pure (early, outbox)
  | none => do
    let applied ← (apply runtime command).attempt
    return conclude command clock outbox applied

structure CommandResult where
  commandId : JsString
  success : Bool
  errorCode : JsString
  errorDetail : JsString
  sqlErrorNumber : Int
  resultingJob : Option JobDefinitionBlob
  appliedAt : Timestamp
  deriving DecidableEq

def ApplyOutcome.toResult (outcome : ApplyOutcome) (command : Command) (clock : Clock) : CommandResult where
  commandId := command.id
  success := outcome.success
  errorCode := outcome.errorCode
  errorDetail := outcome.errorDetail
  sqlErrorNumber := outcome.sqlErrorNumber
  resultingJob := outcome.resultingJob
  appliedAt := toTimestamp clock.repliedAt

def handleCommand (command : Command) (context : CommandContext) (clock : Clock) (outbox : Outbox) :
    Sql (Except Failure CommandResult × Outbox) := do
  let (outcome, outbox) ← evaluateAndApply runtime command context clock outbox
  return (outcome.map (·.toResult command clock), outbox)

end

/-! ## What handling a command does -/

section
variable {runtime : Runtime} {command : Command} {context : CommandContext} {outbox : Outbox}

/-- The gates of signature, freshness and capability are open at this time. -/
structure Admitted (runtime : Runtime) (command : Command) (context : CommandContext) (now : Int) :
    Prop where
  keyed : context.commandSigningPublicKey ≠ []
  signed : verifyCommandSignature runtime.crypto command.toObject context.commandSigningPublicKey = .ok true
  fresh : ∃ issuedAt, fromTimestamp command.issuedAt = some issuedAt ∧ isCommandFresh issuedAt now = true
  permitted : ∃ required ∈ context.capabilities,
    property (commandKind command.toObject) COMMAND_CAPABILITY = some required

/-- A command is applied exactly if it is admitted and was not applied before. -/
theorem gates_eq_none {now : Int} : gates runtime command context outbox now = none ↔
    Admitted runtime command context now ∧ outbox.appliedCommandOutcome command.id = none := by
  unfold gates
  constructor
  · intro passed
    split at passed
    · cases passed
    rename_i keyed
    split at passed
    · cases passed
    · cases passed
    rename_i signed
    simp only at passed
    split at passed
    · cases passed
    rename_i fresh
    split at passed
    · cases passed
    rename_i required named
    split at passed
    · cases passed
    rename_i permitted
    split at passed
    · cases passed
    rename_i unrecorded
    refine ⟨⟨keyed, signed, ?_, required, by simpa using permitted, named⟩, unrecorded⟩
    simpa [Option.any_eq_true] using fresh
  · rintro ⟨⟨keyed, signed, ⟨issuedAt, timed, fresh⟩, required, permitted, named⟩, unrecorded⟩
    simp only [keyed, signed, timed, Option.any_some, fresh, named, permitted, unrecorded, ↓reduceIte,
      Bool.not_true, Bool.false_eq_true, not_true_eq_false]

/-- A command that was applied before is answered from its record. -/
theorem gates_replay {now : Int} {success : Bool} {result : Option JsString}
    (admitted : Admitted runtime command context now)
    (recorded : outbox.appliedCommandOutcome command.id = some (success, result)) :
    gates runtime command context outbox now = some (.ok (replay success result)) := by
  obtain ⟨keyed, signed, ⟨issuedAt, timed, fresh⟩, required, permitted, named⟩ := admitted
  simp only [gates, keyed, signed, timed, Option.any_some, fresh, named, permitted, recorded, ↓reduceIte,
    Bool.not_true, Bool.false_eq_true, not_true_eq_false]

/-- Handling ends early, with nothing said to msdb, or applies the command. -/
theorem runs_handleCommand {clock : Clock} {transcript : Transcript}
    {ended : Except Failure (Except Failure CommandResult × Outbox)} :
    Runs (handleCommand runtime command context clock outbox) transcript ended ↔
      (∃ early, gates runtime command context outbox clock.checkedAt = some early ∧ transcript = [] ∧
        ended = .ok (early.map (·.toResult command clock), outbox)) ∨
      (gates runtime command context outbox clock.checkedAt = none ∧ ∃ applied,
        Runs (apply runtime command) transcript applied ∧
        ended = .ok ((conclude command clock outbox applied).1.map (·.toResult command clock),
          (conclude command clock outbox applied).2)) := by
  simp only [handleCommand, evaluateAndApply]
  cases passed : gates runtime command context outbox clock.checkedAt with
  | some early =>
    simp only [runs_bind, runs_pure, Option.some.injEq, reduceCtorEq, false_and, or_false]
    constructor
    · rintro (⟨error, ⟨rfl, same⟩, -⟩ | ⟨_, _, _, rfl, ⟨rfl, same⟩, rfl, rfl⟩)
      · cases same
      · cases same
        exact ⟨early, rfl, rfl, rfl⟩
    · rintro ⟨_, rfl, rfl, rfl⟩
      exact .inr ⟨_, [], [], rfl, ⟨rfl, rfl⟩, rfl, rfl⟩
  | none =>
    simp only [runs_bind, runs_pure, runs_attempt, reduceCtorEq, false_and, exists_false, false_or, true_and]
    constructor
    · rintro (⟨error, ⟨_, ⟨_, -, same⟩, -⟩ | ⟨_, _, _, -, -, -, same⟩, -⟩ |
        ⟨_, _, _, rfl, ⟨_, ⟨_, -, same⟩, same'⟩ | ⟨_, _, _, rfl, ⟨applied, run, same⟩, rfl, same'⟩, rfl, rfl⟩)
      · cases same
      · cases same
      · cases same
      · cases same
        cases same'
        exact ⟨_, by simpa using run, rfl⟩
    · rintro ⟨applied, run, rfl⟩
      exact .inr ⟨_, transcript, [], by simp,
        .inr ⟨applied, transcript, [], by simp, ⟨applied, run, rfl⟩, rfl, rfl⟩, rfl, rfl⟩

/-- Handling a command ends, however msdb answers. What is thrown while applying
is part of how it ends. -/
theorem handleCommand_ends (world : World SqlAnswer) (clock : Clock) :
    ∃ transcript result outbox',
      Runs (handleCommand runtime command context clock outbox) transcript (.ok (result, outbox')) := by
  have run := runs_runIn world [] (handleCommand runtime command context clock outbox)
  rcases runs_handleCommand.mp run with ⟨_, -, -, same⟩ | ⟨-, _, -, same⟩ <;>
    exact ⟨_, _, _, same ▸ run⟩

end

section Toggle

/-! A job is switched on, msdb commits, and the job is read back. -/

def toggleRuntime : Runtime where
  crypto := { sampleCrypto with verifies := fun _ _ _ => true }
  parseJson _ := .error (js "Unexpected end of JSON input")
  jobSchemaMessage _ := js "Invalid input"

def toggleCommand : Command where
  id := js "c1"
  issuedAt := some { seconds := 1700000000, nanos := 0 }
  instanceName := js "SQL01"
  signature := [1]
  payload := some (.toggleJob { jobUuid := js "j1", enabled := true, baseDefinitionHash := [] })

def toggleContext : CommandContext where
  capabilities := [.observe, .jobToggle, .jobRun]
  commandSigningPublicKey := js "key"

def toggleClock : Clock where
  checkedAt := 1700000001000
  heartbeats := [1700000001500]
  recordedAt := 1700000002000
  repliedAt := 1700000002000

/-- The update is committed, and the query for the jobs comes back so. -/
def toggleTranscript (jobs : Except SqlError (List JobRow)) : Transcript :=
  [⟨.onPool (.execute .sp_update_job [(js "job_id", .string (js "j1")), (js "enabled", bit true)]),
      { result := .ok (), committed := true }⟩,
    ⟨.onPool .jobs, { result := jobs, committed := false }⟩,
    ⟨.onPool .steps, { result := .ok [], committed := false }⟩,
    ⟨.onPool .schedules, { result := .ok [], committed := false }⟩,
    ⟨.onPool .jobServers, { result := .ok [], committed := false }⟩]

theorem toggle_passes :
    gates toggleRuntime toggleCommand toggleContext .empty toggleClock.checkedAt = none := by
  decide +kernel

/-- What is left in the outbox once the toggle has succeeded. -/
def toggleOutbox : Outbox :=
  (Outbox.empty.afterHeartbeats toggleClock.heartbeats).recordAppliedCommand (js "c1") true none
    toggleClock.recordedAt

theorem toggle_handled : Runs (handleCommand toggleRuntime toggleCommand toggleContext toggleClock .empty)
    (toggleTranscript (.ok [])) (.ok (.ok ((ok none).toResult toggleCommand toggleClock), toggleOutbox)) :=
  runs_handleCommand.mpr (.inr ⟨toggle_passes, .ok (ok none),
    .call _ (.call _ (.call _ (.call _ (.call _ (.done _))))), rfl⟩)

end Toggle

end RemoteSqlAgent
