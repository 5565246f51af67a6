import RemoteSqlAgent.HubRules
import RemoteSqlAgent.CommandRules

/-! Which versions are attributed to the dashboard. A delta is attributed to
whatever command it names, and a result to its command for whatever job it
brings; so a version is the work of a command that was dispatched for its job
exactly if the worker attributes no other change of a job to one. -/
namespace RemoteSqlAgent
open Js CallProgram

/-- A recording that the database did. -/
def Recording : Exchange HubAnswer → Prop
  | ⟨.job (.recordJobVersion _), .ok _⟩ => True
  | _ => False

theorem Recording.eq {exchange : Exchange HubAnswer} (recording : Recording exchange) :
    ∃ input result, exchange = ⟨.job (.recordJobVersion input), .ok result⟩ := by
  rcases exchange with ⟨request, answer⟩
  cases request with
  | job statement =>
    cases statement with
    | recordJobVersion input =>
      cases answer with
      | error text => exact recording.elim
      | ok result => exact ⟨input, result, rfl⟩
    | _ => exact recording.elim
  | _ => exact recording.elim

/-- The command is one that was dispatched to the worker, for the job. -/
structure DispatchedFor (store : HubStore) (workerId commandId : JsString) (key : JobKey) : Prop where
  row : ∃ row, store.commands.commands commandId = some row ∧ row.workerId = workerId ∧
    row.instanceId = key.instanceId ∧ row.jobUuid = some key.jobUuid
  sent : ∃ command, (workerId, command) ∈ store.commands.sent ∧ command.id = commandId

/-- The job is there, with another definition. -/
def Moves (store : HubStore) (key : JobKey) (definitionHash : JsString) : Prop :=
  ∃ row, store.tables.jobs key = some row ∧ row.currentDefinitionHash ≠ some definitionHash

/-- The message changes a job as the work of a command that was not dispatched for
it. -/
def Launders (crypto : Crypto) (store : HubStore) (workerId : JsString) : HubMessage → Prop
  | .definition delta => delta.appliedCommandId ≠ [] ∧ ∃ job instanceId, delta.job = some job ∧
    store.instanceId workerId delta.instanceName = some instanceId ∧
    Moves store ⟨instanceId, job.jobUuid⟩ (hashCanonical crypto job.canonicalJson) ∧
    ¬ DispatchedFor store workerId delta.appliedCommandId ⟨instanceId, job.jobUuid⟩
  | .commandResult result => result.success = true ∧ ∃ job row, result.resultingJob = some job ∧
    store.commands.commands result.commandId = some row ∧
    Moves store ⟨row.instanceId, job.jobUuid⟩ (hashCanonical crypto job.canonicalJson) ∧
    ¬ DispatchedFor store workerId result.commandId ⟨row.instanceId, job.jobUuid⟩
  | _ => False

namespace HubStep

/-- A version that the step adds as remote is the work of a command that was
dispatched to the worker of the session for this job. -/
def RemoteAsDispatched (step : HubStep) : Prop :=
  ∀ key version, step.after.tables.jobVersions key = step.before.tables.jobVersions key ++ [version] →
    version.origin = .remote → ∃ number worker remoteAddress count commandId,
      step.operation = .session number worker remoteAddress count ∧ version.commandId = some commandId ∧
        DispatchedFor step.before worker.workerId commandId key

/-- A message that the step records launders nothing. -/
def Honest (crypto : Crypto) (step : HubStep) : Prop :=
  ∀ number worker remoteAddress count message, step.operation = .session number worker remoteAddress count →
    lastMessage step.said = some message → Recording step.exchange →
      ¬ Launders crypto step.before worker.workerId message

end HubStep

/-! ## What stays as it was told -/

/-- An instance and a command are still what a session was told of them. -/
def StillSo (exchange : Exchange HubAnswer) (store : HubStore) : Prop :=
  (∀ workerId name id, exchange = ⟨.upsertInstance workerId name, .ok id⟩ → store.instanceId workerId name = some id) ∧
  ∀ workerId commandId row, exchange = ⟨.command (.selectForWorker commandId workerId), .ok (some row)⟩ →
    ∃ later, store.commands.commands commandId = some later ∧ later.workerId = workerId ∧
      later.instanceId = row.instanceId

theorem CommandUpdate.apply_place (update : CommandUpdate) (row : CommandRow) :
    (update.apply row).workerId = row.workerId ∧ (update.apply row).instanceId = row.instanceId := by
  cases update <;> exact ⟨rfl, rfl⟩

/-- A command stays where it was issued. -/
theorem place_stays {store after : CommandStore} {request : CommandCall} {answer : CommandAnswer request}
    (does : request.Does store answer after) {id : JsString} {row : CommandRow} (found : store.commands id = some row) :
    ∃ later, after.commands id = some later ∧ later.workerId = row.workerId ∧ later.instanceId = row.instanceId := by
  obtain ⟨later, there, ⟨update, -, rfl⟩ | ⟨-, rfl | ⟨-, at_, rfl⟩⟩⟩ := does_row does found
  · exact ⟨_, there, update.apply_place row⟩
  · exact ⟨_, there, rfl, rfl⟩
  · exact ⟨_, there, rfl, rfl⟩

section
variable {runtime : Runtime} {store after : HubStore} {request : HubCall} {answer : HubAnswer request}

theorem instance_stays (does : request.Does runtime store answer after) {workerId name id : JsString}
    (found : store.instanceId workerId name = some id) : after.instanceId workerId name = some id := by
  cases request with
  | command statement =>
    obtain ⟨commands, -, rfl⟩ := does
    exact found
  | job statement =>
    obtain ⟨tables, -, rfl⟩ := does
    exact found
  | upsertInstance other instanceName =>
    cases answer with
    | error text =>
      rw [show after = store from does]
      exact found
    | ok added =>
      rcases does with ⟨-, rfl⟩ | ⟨absent, -, rfl⟩
      · exact found
      · obtain ⟨row, isRow, same⟩ := Option.map_eq_some_iff.mp found
        rw [HubStore.instanceId, HubStore.addInstance, List.find?_append, isRow, Option.some_or, Option.map_some, same]
  | _ =>
    rw [show after = store from does]
    exact found

theorem command_stays (does : request.Does runtime store answer after) {id : JsString} {row : CommandRow}
    (found : store.commands.commands id = some row) :
    ∃ later, after.commands.commands id = some later ∧ later.workerId = row.workerId ∧
      later.instanceId = row.instanceId := by
  have same (unchanged : after.commands = store.commands) :
      ∃ later, after.commands.commands id = some later ∧ later.workerId = row.workerId ∧
        later.instanceId = row.instanceId :=
    ⟨row, unchanged ▸ found, rfl, rfl⟩
  cases request with
  | command statement =>
    obtain ⟨commands, done, rfl⟩ := does
    exact place_stays done found
  | job statement =>
    obtain ⟨tables, -, rfl⟩ := does
    exact same rfl
  | upsertInstance other instanceName =>
    cases answer with
    | error text => exact same (congrArg HubStore.commands (show after = store from does))
    | ok added => rcases does with ⟨-, rfl⟩ | ⟨-, -, rfl⟩ <;> exact same rfl
  | _ => exact same (congrArg HubStore.commands (show after = store from does))

/-- What a session is told is so. -/
theorem stillSo_of_does (does : request.Does runtime store answer after) : StillSo ⟨request, answer⟩ after := by
  constructor
  · intro workerId name id same
    cases same
    rcases does with ⟨found, rfl⟩ | ⟨absent, -, rfl⟩
    · exact found
    · rw [HubStore.instanceId, HubStore.addInstance, List.find?_append, Option.map_eq_none_iff.mp absent]
      simp
  · intro workerId commandId row same
    cases same
    obtain ⟨commands, ⟨rfl, found⟩, rfl⟩ := does
    obtain ⟨there, mine⟩ := Option.filter_eq_some_iff.mp found.symm
    exact ⟨row, there, by simpa using mine, rfl⟩

theorem StillSo.stays (does : request.Does runtime store answer after) {exchange : Exchange HubAnswer}
    (known : StillSo exchange store) : StillSo exchange after := by
  refine ⟨fun workerId name id same => instance_stays does (known.1 workerId name id same), ?_⟩
  intro workerId commandId row same
  obtain ⟨standing, found, mine, place⟩ := known.2 workerId commandId row same
  obtain ⟨later, there, worker, instanceId⟩ := command_stays does found
  exact ⟨later, there, worker.trans mine, instanceId.trans place⟩

/-- Only a recording of a definition that moved adds a version. -/
theorem version_added (does : request.Does runtime store answer after) {key : JobKey} {version : JobVersion}
    (added : after.tables.jobVersions key = store.tables.jobVersions key ++ [version]) :
    ∃ input definition detectedAt, Recording ⟨request, answer⟩ ∧ request = .job (.recordJobVersion input) ∧
      key = input.key ∧ version = JobTables.nextVersion (store.tables.jobs key) input definition detectedAt ∧
      ∀ existing, store.tables.jobs key = some existing →
        existing.currentDefinitionHash ≠ some input.definitionHash := by
  have grown (unchanged : after.tables.jobVersions key = store.tables.jobVersions key) : False := by
    have longer := congrArg List.length added
    rw [unchanged, List.length_append, List.length_singleton] at longer
    omega
  cases request with
  | command statement =>
    obtain ⟨commands, -, rfl⟩ := does
    exact (grown rfl).elim
  | job statement =>
    obtain ⟨tables, done, rfl⟩ := does
    cases statement with
    | recordJobVersion input =>
      cases answer with
      | error text => exact (grown (by rw [show tables = store.tables from done])).elim
      | ok result =>
        obtain ⟨now, recorded⟩ := done
        cases parsed : parseJobDefinition runtime input.canonicalJson with
        | error text =>
          rw [JobTables.recordJobVersion_of_error parsed] at recorded
          cases recorded
        | ok definition =>
          rw [JobTables.recordJobVersion_of_parsed parsed, Except.ok.injEq] at recorded
          rcases JobTables.observe_cases store.tables input definition (input.detectedAt.getD now) with
            ⟨existing, -, -, repeated⟩ | ⟨moved, next, rfl, observed⟩
          · rw [repeated] at recorded
            cases recorded
            exact (grown (by rw [JobTables.reappear_jobVersions])).elim
          · rw [observed] at recorded
            cases recorded
            by_cases same : key = input.key
            · subst same
              refine ⟨input, definition, input.detectedAt.getD now, trivial, rfl, rfl, ?_, moved⟩
              simpa [JobTables.addVersion] using added.symm
            · exact (grown (by simp [JobTables.addVersion, same])).elim
    | markJobDeleted instanceId jobUuid =>
      cases answer with
      | error text => exact (grown (by rw [show tables = store.tables from done])).elim
      | ok _ =>
        obtain ⟨now, rfl⟩ := done
        exact (grown rfl).elim
    | markJobsMissingFromSnapshot instanceId seen =>
      cases answer with
      | error text => exact (grown (by rw [show tables = store.tables from done])).elim
      | ok _ =>
        obtain ⟨now, rfl⟩ := done
        exact (grown rfl).elim
  | upsertInstance other instanceName =>
    cases answer with
    | error text => exact (grown (by rw [show after = store from does])).elim
    | ok added => rcases does with ⟨-, rfl⟩ | ⟨-, -, rfl⟩ <;> exact (grown rfl).elim
  | _ => exact (grown (by rw [show after = store from does])).elim

/-- A recording of a definition that moved adds a version. -/
theorem adds_version {input : RecordVersionInput} {result : RecordVersionResult}
    (does : (HubCall.job (.recordJobVersion input)).Does runtime store (.ok result) after)
    (moves : Moves store input.key input.definitionHash) :
    ∃ definition detectedAt, after.tables.jobVersions input.key = store.tables.jobVersions input.key ++
      [JobTables.nextVersion (store.tables.jobs input.key) input definition detectedAt] := by
  obtain ⟨tables, ⟨now, recorded⟩, rfl⟩ := does
  obtain ⟨row, found, other⟩ := moves
  cases parsed : parseJobDefinition runtime input.canonicalJson with
  | error text =>
    rw [JobTables.recordJobVersion_of_error parsed] at recorded
    cases recorded
  | ok definition =>
    rw [JobTables.recordJobVersion_of_parsed parsed, Except.ok.injEq] at recorded
    rcases JobTables.observe_cases store.tables input definition (input.detectedAt.getD now) with
      ⟨existing, there, same, -⟩ | ⟨-, next, rfl, observed⟩
    · cases found.symm.trans there
      exact absurd same other
    · rw [observed] at recorded
      cases recorded
      exact ⟨definition, input.detectedAt.getD now, by simp [JobTables.addVersion]⟩

end

/-! ## Runs -/

variable {config : HubConfig} {run : List HubStep} {pool : Pool HubAnswer Unit Unit HubStore HubOperation}

/-- A version is remote only as the dispatched work of a command if its message is
honest. -/
theorem HubStep.Honest.remoteAsDispatched {step : HubStep} (honest : step.Honest config.runtime.crypto)
    (does : step.request.Does config.runtime step.before step.answer step.after)
    (follows : HubFollows config step.operation step.said step.request)
    (told : ∀ exchange ∈ step.said, StillSo exchange step.before) : step.RemoteAsDispatched := by
  intro key version added remote
  obtain ⟨input, definition, detectedAt, recording, isRecord, rfl, rfl, moved⟩ := version_added does added
  rw [isRecord] at follows
  obtain ⟨number, worker, remoteAddress, count, message, opened, last, records⟩ := follows
  have plain := honest number worker remoteAddress count message opened last recording
  -- It is no first version, so the message says that it is remote.
  cases found : step.before.tables.jobs input.key with
  | none =>
    rw [found] at remote
    cases remote
  | some row =>
    rw [found] at remote
    replace remote : input.origin = .remote := remote
    have moves : Moves step.before input.key input.definitionHash := ⟨row, found, moved row found⟩
    cases message with
    | snapshot snapshot =>
      obtain ⟨instanceId, blob, rfl⟩ := records
      cases remote
    | definition delta =>
      obtain ⟨job, instanceId, isJob, -, upserted, rfl⟩ := records
      have named : delta.appliedCommandId ≠ [] := by
        intro none
        simp [deltaInput, none] at remote
      have place := (told _ upserted).1 _ _ _ rfl
      refine ⟨number, worker, remoteAddress, count, delta.appliedCommandId, opened,
        by simp [JobTables.nextVersion, deltaInput, orNull, named], ?_⟩
      by_contra other
      exact plain ⟨named, job, instanceId, isJob, place, moves, other⟩
    | commandResult result =>
      obtain ⟨job, command, isJob, lookedUp, rfl⟩ := records
      have success : result.success = true := by
        by_contra failed
        simp [resultInput, failed] at remote
      obtain ⟨later, stands, mine, place⟩ := (told _ lookedUp).2 _ _ _ rfl
      refine ⟨number, worker, remoteAddress, count, result.commandId, opened,
        by simp [JobTables.nextVersion, resultInput, success], ?_⟩
      by_contra other
      refine plain ⟨success, job, later, isJob, stands, ?_, ?_⟩
      · rw [place]
        exact moves
      · rw [place]
        exact other
    | _ => exact records.elim

/-- If its versions are remote only as dispatched work, a step launders nothing. -/
theorem HubStep.RemoteAsDispatched.honest {step : HubStep} (asDispatched : step.RemoteAsDispatched)
    (does : step.request.Does config.runtime step.before step.answer step.after)
    (follows : HubFollows config step.operation step.said step.request)
    (told : ∀ exchange ∈ step.said, StillSo exchange step.before) : step.Honest config.runtime.crypto := by
  intro number worker remoteAddress count message opened last recording launders
  rcases step with ⟨operation, said, request, answer, before, after⟩
  -- Recording what the message says adds a version that says that it is remote.
  have attributed (input : RecordVersionInput) (result : RecordVersionResult)
      (does : (HubCall.job (.recordJobVersion input)).Does config.runtime before (.ok result) after)
      (moves : Moves before input.key input.definitionHash) (remote : input.origin = .remote) :
      ∃ commandId, input.commandId = some commandId ∧
        DispatchedFor before worker.workerId commandId input.key := by
    obtain ⟨definition, detectedAt, added⟩ := adds_version does moves
    obtain ⟨row, found, -⟩ := moves
    rw [found] at added
    obtain ⟨_, _, _, _, commandId, same, named, dispatched⟩ := asDispatched input.key _ added remote
    cases opened.symm.trans same
    exact ⟨commandId, named, dispatched⟩
  obtain ⟨input, result, same⟩ := recording.eq
  cases same
  obtain ⟨_, _, _, _, _, same, lastIs, records⟩ := follows
  cases opened.symm.trans same
  cases last.symm.trans lastIs
  cases message with
  | definition delta =>
    obtain ⟨named, job, instanceId, isJob, place, moves, other⟩ := launders
    obtain ⟨recorded, upserted, isRecorded, -, known, rfl⟩ := records
    cases isJob.symm.trans isRecorded
    cases place.symm.trans ((told _ known).1 _ _ _ rfl)
    obtain ⟨commandId, isCommand, dispatched⟩ := attributed _ result does moves (by simp [deltaInput, named])
    simp only [deltaInput, orNull, named, ↓reduceIte, Option.some.injEq] at isCommand
    exact other (isCommand ▸ dispatched)
  | commandResult result =>
    obtain ⟨success, job, row, isJob, found, moves, other⟩ := launders
    obtain ⟨recorded, command, isRecorded, known, rfl⟩ := records
    cases isJob.symm.trans isRecorded
    obtain ⟨later, stands, -, place⟩ := (told _ known).2 _ _ _ rfl
    cases found.symm.trans stands
    rw [place] at moves other
    obtain ⟨commandId, isCommand, dispatched⟩ := attributed _ _ does moves (by simp [resultInput, success])
    simp only [resultInput, success, ↓reduceIte, Option.some.injEq] at isCommand
    exact other (isCommand ▸ dispatched)
  | _ => exact launders

theorem honest_of_asDispatched
    (reaches : Reaches (HubCall.Does config.runtime) (HubOperation.body config) .empty pool run)
    (asDispatched : ∀ step ∈ run, step.RemoteAsDispatched) : ∀ step ∈ run, step.Honest config.runtime.crypto := by
  have follows := (reaches.allowed (HubFollows config) (obeys_hub config)).2
  have told := (reaches.told StillSo (fun taken member => stillSo_of_does (reaches.does taken member))
    fun taken member exchange known => known.stays (reaches.does taken member)).2
  exact fun step member =>
    (asDispatched step member).honest (reaches.does step member) (follows step member) (told step member)

theorem asDispatched_of_honest
    (reaches : Reaches (HubCall.Does config.runtime) (HubOperation.body config) .empty pool run)
    (honest : ∀ step ∈ run, step.Honest config.runtime.crypto) : ∀ step ∈ run, step.RemoteAsDispatched := by
  have follows := (reaches.allowed (HubFollows config) (obeys_hub config)).2
  have told := (reaches.told StillSo (fun taken member => stillSo_of_does (reaches.does taken member))
    fun taken member exchange known => known.stays (reaches.does taken member)).2
  exact fun step member =>
    (honest step member).remoteAsDispatched (reaches.does step member) (follows step member) (told step member)

/-- **Versions are remote only as the work of commands that were dispatched for
their jobs, exactly in the runs in which no recorded message launders.** -/
theorem remote_as_dispatched_iff
    (reaches : Reaches (HubCall.Does config.runtime) (HubOperation.body config) .empty pool run) :
    (∀ step ∈ run, step.RemoteAsDispatched) ↔ ∀ step ∈ run, step.Honest config.runtime.crypto :=
  ⟨honest_of_asDispatched reaches, asDispatched_of_honest reaches⟩

/-! A worker that was sent no command reports a local edit as the work of one. -/

def launderedRun : List HubStep := (afterHubWork [
  .begin (sampleSession 0), .steps 0 9 sampleHello, .steps 0 2 (sampleDelta true []),
  .steps 0 2 (sampleDelta false (js "c9"))]).2

private theorem launderedRun_reaches : Reaches (HubCall.Does sampleHub.runtime) (HubOperation.body sampleHub) .empty
    (afterHubWork [.begin (sampleSession 0), .steps 0 9 sampleHello, .steps 0 2 (sampleDelta true []),
      .steps 0 2 (sampleDelta false (js "c9"))]).1 launderedRun :=
  reaches_afterHubWork _

/-- The step records a delta whose job has moved and whose command is unknown. -/
def launders (crypto : Crypto) (step : HubStep) : Bool :=
  match step.operation, lastMessage step.said, step.exchange with
  | .session _ worker _ _, some (.definition delta), ⟨.job (.recordJobVersion _), .ok _⟩ =>
    match delta.job, step.before.instanceId worker.workerId delta.instanceName with
    | some job, some instanceId =>
      delta.appliedCommandId ≠ [] ∧ (step.before.commands.commands delta.appliedCommandId).isNone = true ∧
        (step.before.tables.jobs ⟨instanceId, job.jobUuid⟩).any fun row =>
          row.currentDefinitionHash ≠ some (hashCanonical crypto job.canonicalJson)
    | _, _ => false
  | _, _, _ => false

private theorem not_honest_of_launders {crypto : Crypto} {step : HubStep} (checked : launders crypto step = true) :
    ¬ step.Honest crypto := by
  intro honest
  unfold launders at checked
  split at checked
  · rename_i number worker remoteAddress count delta input result opened last exchange
    split at checked
    · rename_i job instanceId isJob place
      obtain ⟨named, unknown, moved⟩ := of_decide_eq_true checked
      obtain ⟨row, found, other⟩ := (Option.any_eq_true _ _).mp moved
      refine honest number worker remoteAddress count _ opened last (by rw [exchange]; trivial)
        ⟨named, job, instanceId, isJob, place, ⟨row, found, of_decide_eq_true other⟩, fun dispatched => ?_⟩
      obtain ⟨command, there, -⟩ := dispatched.row
      rw [there] at unknown
      cases unknown
    · cases checked
  · cases checked

private theorem laundered_not_honest : ¬ ∀ step ∈ launderedRun, step.Honest sampleHub.runtime.crypto := by
  have checked : (launderedRun[12]?).any (launders mirrorRuntime.crypto) = true := by
    decide +kernel
  obtain ⟨step, there, shown⟩ := (Option.any_eq_true _ _).mp checked
  intro honest
  exact not_honest_of_launders shown (honest step (List.mem_of_getElem? there))

/-- The edit is not recorded as dispatched work. -/
theorem laundered_not_dispatched : ¬ ∀ step ∈ launderedRun, step.RemoteAsDispatched := fun asDispatched =>
  laundered_not_honest ((remote_as_dispatched_iff launderedRun_reaches).mp asDispatched)

/-- **A local edit can be laundered as a remote one.** -/
theorem remote_without_dispatch :
    ¬ ∀ (config : HubConfig) (run : List HubStep) (pool : Pool HubAnswer Unit Unit HubStore HubOperation),
      Reaches (HubCall.Does config.runtime) (HubOperation.body config) .empty pool run →
        ∀ step ∈ run, step.RemoteAsDispatched :=
  fun claim => laundered_not_honest
    (honest_of_asDispatched launderedRun_reaches (claim sampleHub launderedRun _ launderedRun_reaches))

end RemoteSqlAgent
