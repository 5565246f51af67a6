import RemoteSqlAgent.JobFlow
import RemoteSqlAgent.WorkerTables

/-! Which step a running job is on, for the overview of all of them and for the statistics
of one. Both read the steps that the run has finished, and follow the flow of the job from
the last of them. -/
namespace RemoteSqlAgent
open Js

/-! ## The mirror -/

/-- A row of `job_activity`. -/
structure JobActivityRow extends JobActivity where
  job : JobKey

/-- A row of `instances`. One that is detached is not shown. -/
structure DetachableInstance extends InstanceRow where
  detachedAt : Option Int

structure ScreenStore where
  jobActivity : KeyedTable JobActivityRow.job
  jobHistory : KeyedTable JobHistoryRow.key
  tables : JobTables
  instances : KeyedTable fun row : DetachableInstance => row.id
  workers : JsString → Option WorkersRow

/-- `job_versions` joined with `jobs` on the current version. -/
def JobTables.currentDefinitions (tables : JobTables) (job : JobKey) : List JobDefinition :=
  match tables.jobs job with
  | none => []
  | some row =>
    ((tables.jobVersions job).filter fun version => version.versionNo = row.currentVersionNo).map (·.definition)

/-- `ORDER BY sql_instance_id`. -/
def bySqlInstanceId (first second : JobHistoryRow) : Int := first.sqlInstanceId - second.sqlInstanceId

/-- `Math.max(0, Math.round(milliseconds / 1000))`. -/
def wholeSeconds (milliseconds : Int) : Int := max 0 ((milliseconds + 500) / 1000)

/-- `[...definition.steps].sort((a, b) => a.stepId - b.stepId)`. -/
def JobDefinition.ordered (definition : JobDefinition) : List JobStep :=
  sortBy (fun a b : JobStep => a.stepId - b.stepId) definition.steps

def JobHistoryRow.completed (row : JobHistoryRow) : CompletedStep := ⟨row.stepId, row.runStatus⟩

/-! ## The overview -/

/-- An executing job, with what msdb says of its step. -/
structure RunningRow where
  instanceId : JsString
  instanceName : JsString
  hostName : JsString
  jobUuid : JsString
  jobName : JsString
  currentStepId : Option Int
  currentStepName : Option JsString
  startedAt : Option Int

def RunningRow.job (row : RunningRow) : JobKey := ⟨row.instanceId, row.jobUuid⟩

structure RunningJob extends RunningRow where
  currentStepNumber : Option Nat
  stepCount : Option Nat
  elapsedSeconds : Option Int

structure StepProgress where
  currentStepId : Option Int
  currentStepName : Option JsString
  currentStepNumber : Option Nat
  stepCount : Nat

/-- `ORDER BY started_at`: rows without one come last. -/
def byStart (first second : RunningRow) : Int :=
  match first.startedAt, second.startedAt with
  | some one, some other => one - other
  | some _, none => -1
  | none, some _ => 1
  | none, none => 0

/-- The executing jobs that are there, on instances that are not detached. -/
def ScreenStore.runningRows (store : ScreenStore) : List RunningRow :=
  sortBy byStart <| (store.jobActivity.rows.filter fun row => row.state = js "executing").filterMap fun row => do
    let instanceRow ← store.instances.rows.find? fun held => held.id = row.job.instanceId ∧ held.detachedAt = none
    let worker ← store.workers instanceRow.workerId
    let job ← (store.tables.jobs row.job).filter fun job => job.deletedAt.isNone
    return {
      instanceId := row.job.instanceId
      instanceName := instanceRow.instanceName
      hostName := worker.hostName
      jobUuid := row.job.jobUuid
      jobName := job.name
      currentStepId := row.currentStepId
      currentStepName := row.currentStepName
      startedAt := row.startedAt }

/-- A bound for the query: a second before the first start, or a recent time. -/
def earliestStart (clock : Int) (running : List RunningRow) : Int :=
  match (running.filterMap (·.startedAt)).min? with
  | none => clock - 60 * 60 * 1000
  | some first => first - 1000

/-- Where a run is, by the steps that it has finished. -/
def progressOf (definition : JobDefinition) (completed : List JobHistoryRow) : StepProgress :=
  let stepId := inferRunningStep definition (completed.map JobHistoryRow.completed)
  let index := stepId.bind fun id => definition.ordered.findIdx? fun step => step.stepId = id
  { currentStepId := stepId
    currentStepName := index.bind fun i => (definition.ordered[i]?).map (·.name)
    currentStepNumber := index.map (· + 1)
    stepCount := definition.ordered.length }

/-- The definitions of the jobs of these instances and these uuids. -/
def ScreenStore.definitionRows (store : ScreenStore) (running : List RunningRow) : List (JobKey × JobDefinition) :=
  (running.map (·.instanceId)).dedup.flatMap fun instanceId => (running.map (·.jobUuid)).dedup.flatMap fun jobUuid =>
    (store.tables.currentDefinitions ⟨instanceId, jobUuid⟩).map fun definition => (⟨instanceId, jobUuid⟩, definition)

/-- The steps that any of the runs has finished. -/
def ScreenStore.historyRows (store : ScreenStore) (clock : Int) (running : List RunningRow) : List JobHistoryRow :=
  sortBy bySqlInstanceId <| store.jobHistory.rows.filter fun row =>
    row.instanceId ∈ (running.map (·.instanceId)).dedup ∧ row.jobUuid ∈ (running.map (·.jobUuid)).dedup ∧
      row.stepId ≠ 0 ∧ earliestStart clock running ≤ row.runDatetime

/-- What is put out for a job. One that is not mirrored is passed over. -/
def ScreenStore.progressEntry (store : ScreenStore) (clock : Int) (running : List RunningRow) (job : RunningRow) :
    Option (JobKey × StepProgress) :=
  match mapGet Prod.fst (store.definitionRows running) job.job with
  | none => none
  | some (_, definition) =>
    if definition.steps = [] then none
    else
      some (job.job, progressOf definition <| (store.historyRows clock running).filter fun row =>
        row.instanceId = job.instanceId ∧ row.jobUuid = job.jobUuid ∧
          job.startedAt.any fun startedAt => startedAt - 1000 ≤ row.runDatetime)

/-- Which step each running job is on. The rows are fetched for all of them at once. -/
def runningStepProgress (store : ScreenStore) (clock : Int) (running : List RunningRow) :
    List (JobKey × StepProgress) :=
  running.filterMap (store.progressEntry clock running)

/-- Every job that executes, with the step it is on. Only for a job that is not mirrored is
that what msdb says. -/
def getRunningJobs (store : ScreenStore) (clock now : Int) : List RunningJob :=
  let progress := runningStepProgress store clock store.runningRows
  store.runningRows.map fun row =>
    let step := (mapGet Prod.fst progress row.job).map Prod.snd
    { row with
      currentStepId := step.elim row.currentStepId (·.currentStepId)
      currentStepName := step.elim row.currentStepName (·.currentStepName)
      currentStepNumber := step.bind (·.currentStepNumber)
      stepCount := step.map (·.stepCount)
      elapsedSeconds := row.startedAt.map fun startedAt => wholeSeconds (now - startedAt) }

/-! ## The statistics of a job -/

structure CurrentRunStep where
  stepId : Int
  stepName : Option JsString
  runStatus : Int
  startedAt : Int
  runDurationSeconds : Int
  message : Option JsString

structure CurrentRun where
  startedAt : Option Int
  elapsedSeconds : Option Int
  currentStepId : Option Int
  currentStepName : Option JsString
  /-- In the order of execution. -/
  completedSteps : List CurrentRunStep

/-- What is known of a job, as far as a run in flight goes. -/
structure JobStats where
  currentRun : Option CurrentRun

def JobHistoryRow.currentRunStep (row : JobHistoryRow) : CurrentRunStep where
  stepId := row.stepId
  stepName := row.stepName
  runStatus := row.runStatus
  startedAt := row.runDatetime
  runDurationSeconds := row.runDurationSeconds
  message := row.message

def CurrentRunStep.completed (step : CurrentRunStep) : CompletedStep := ⟨step.stepId, step.runStatus⟩

/-- The steps that the run has finished, and the one it is on. -/
def getCurrentRun (store : ScreenStore) (job : JobKey) (activity : JobActivity) (now : Int) : CurrentRun :=
  let completedSteps := match activity.startedAt with
    | none => []
    | some startedAt =>
      (sortBy bySqlInstanceId <| store.jobHistory.rows.filter fun row => row.instanceId = job.instanceId ∧
        row.jobUuid = job.jobUuid ∧ row.stepId ≠ 0 ∧ startedAt - 1000 ≤ row.runDatetime).map
          JobHistoryRow.currentRunStep
  let definition := if activity.startedAt.isSome then (store.tables.currentDefinitions job).head? else none
  let ordered := definition.elim [] JobDefinition.ordered
  let derivedStepId := definition.bind fun definition =>
    if ordered = [] then none else inferRunningStep definition (completedSteps.map CurrentRunStep.completed)
  let derived := ordered.find? fun step => some step.stepId = derivedStepId
  { startedAt := activity.startedAt
    elapsedSeconds := activity.startedAt.map fun startedAt => wholeSeconds (now - startedAt)
    currentStepId := if definition.isSome then derivedStepId else activity.currentStepId
    currentStepName := if definition.isSome then derived.map (·.name) else activity.currentStepName
    completedSteps := completedSteps }

def getJobStats (store : ScreenStore) (job : JobKey) (now : Int) : JobStats where
  currentRun :=
    ((store.jobActivity.rows.find? fun row => row.job = job).filter fun row => row.state = js "executing").map
    fun activity => getCurrentRun store job activity.toJobActivity now

/-! ## The steps of a run -/

/-- The rows of the steps that a run has finished, in the order of msdb. -/
def ScreenStore.finishedSteps (store : ScreenStore) (job : JobKey) (startedAt : Int) : List JobHistoryRow :=
  sortBy bySqlInstanceId <| store.jobHistory.rows.filter fun row =>
    row.job = job ∧ row.stepId ≠ 0 ∧ startedAt - 1000 ≤ row.runDatetime

/-- The run of the job that is in flight. -/
structure Executes (store : ScreenStore) (job : JobKey) (startedAt : Int) : Prop where
  activity : ∃ row ∈ store.jobActivity.rows, row.job = job ∧ row.state = js "executing" ∧ row.startedAt = some startedAt

/-- The definition of the job is mirrored. It has a step. -/
structure HasDefinition (store : ScreenStore) (job : JobKey) (definition : JobDefinition) : Prop where
  current : store.tables.currentDefinitions job = [definition]
  steps : definition.steps ≠ []

section Runs
variable {store : ScreenStore} {job : JobKey} {startedAt clock now : Int} {definition : JobDefinition}

theorem job_eq_iff {row : JobHistoryRow} :
    row.job = job ↔ row.instanceId = job.instanceId ∧ row.jobUuid = job.jobUuid := by
  cases job
  simp [JobHistoryRow.job]

/-- Of the rows of one job, msdb's order is the only one. -/
theorem filter_history {rows : List JobHistoryRow} {test : JobHistoryRow → Bool}
    (unique : (rows.map JobHistoryRow.key).Nodup)
    (own : ∀ row ∈ rows, test row = true → row.instanceId = job.instanceId) :
    (sortBy bySqlInstanceId rows).filter test = sortBy bySqlInstanceId (rows.filter test) := by
  have consistent : Consistent bySqlInstanceId := consistent_byNumber _
  rw [← sortBy_eq_self ((sortBy_sorted consistent rows).filter test)]
  refine sortBy_eq_of_perm consistent (fun first one second other before behind => ?_) ((sortBy_perm _ _).filter test)
  obtain ⟨there, mine⟩ := List.mem_filter.mp one
  obtain ⟨also, theirs⟩ := List.mem_filter.mp other
  rw [mem_sortBy] at there also
  refine List.inj_on_of_nodup_map unique there also (Prod.ext ?_ ?_)
  · exact (own first there mine).trans (own second also theirs).symm
  · simp only [bySqlInstanceId] at before behind
    simp only [JobHistoryRow.key]
    omega

theorem earliestStart_le {running : List RunningRow} {row : RunningRow} (member : row ∈ running)
    (started : row.startedAt = some startedAt) : earliestStart clock running ≤ startedAt - 1000 := by
  have there : startedAt ∈ running.filterMap (·.startedAt) := List.mem_filterMap.mpr ⟨row, member, started⟩
  unfold earliestStart
  split
  · rename_i none
    rw [List.min?_eq_none_iff.mp none] at there
    cases there
  · rename_i first least
    have below := (List.le_min?_iff least).mp (le_refl first) startedAt there
    omega

/-- The run of a job that is listed is the one in flight. -/
theorem startedAt_of_listed (executes : Executes store job startedAt) {row : RunningRow}
    (listed : row ∈ store.runningRows)
    (same : row.job = job) : row.startedAt = some startedAt := by
  obtain ⟨activity, there, own, -, started⟩ := executes.activity
  rw [ScreenStore.runningRows, mem_sortBy, List.mem_filterMap] at listed
  obtain ⟨other, member, shown⟩ := listed
  have also : other ∈ store.jobActivity.rows := (List.mem_filter.mp member).1
  obtain ⟨instanceRow, -, shown⟩ := Option.bind_eq_some_iff.mp shown
  obtain ⟨worker, -, shown⟩ := Option.bind_eq_some_iff.mp shown
  obtain ⟨held, -, shown⟩ := Option.bind_eq_some_iff.mp shown
  cases shown
  rw [← started, store.jobActivity.eq_of_key there also (own.trans same.symm)]

/-- Of what was fetched for all jobs, one has what its own run has finished. -/
theorem filter_historyRows {running : List RunningRow} {row : RunningRow} (listed : row ∈ running)
    (started : row.startedAt = some startedAt) :
    ((store.historyRows clock running).filter fun held =>
      held.instanceId = row.instanceId ∧ held.jobUuid = row.jobUuid ∧
      row.startedAt.any fun startedAt => startedAt - 1000 ≤ held.runDatetime) =
        store.finishedSteps row.job startedAt := by
  have bound : earliestStart clock running ≤ startedAt - 1000 := earliestStart_le listed started
  have instanceListed := List.mem_map_of_mem (f := RunningRow.instanceId) listed
  have jobListed := List.mem_map_of_mem (f := RunningRow.jobUuid) listed
  refine (@filter_history row.job _ _ (store.jobHistory.unique.sublist (List.filter_sublist.map _)) ?_).trans ?_
  · intro held _ mine
    rw [decide_eq_true_eq] at mine
    exact mine.1
  · rw [List.filter_filter, ScreenStore.finishedSteps]
    refine congrArg (sortBy bySqlInstanceId) (List.filter_congr fun held _ => ?_)
    rw [started, Option.any_some, Bool.eq_iff_iff, Bool.and_eq_true, decide_eq_true_eq, decide_eq_true_eq,
      decide_eq_true_eq, decide_eq_true_eq, job_eq_iff, List.mem_dedup, List.mem_dedup]
    constructor
    · rintro ⟨⟨instanceId, jobUuid, within⟩, -, -, step, -⟩
      exact ⟨⟨instanceId, jobUuid⟩, step, within⟩
    · rintro ⟨⟨instanceId, jobUuid⟩, step, within⟩
      exact ⟨⟨instanceId, jobUuid, within⟩, instanceId ▸ instanceListed, jobUuid ▸ jobListed, step, by omega⟩

theorem mem_definitionRows {running : List RunningRow} {entry : JobKey × JobDefinition} :
    entry ∈ store.definitionRows running ↔ entry.1.instanceId ∈ running.map (·.instanceId) ∧
      entry.1.jobUuid ∈ running.map (·.jobUuid) ∧ entry.2 ∈ store.tables.currentDefinitions entry.1 := by
  obtain ⟨⟨instanceId, jobUuid⟩, definition⟩ := entry
  simp only [ScreenStore.definitionRows, List.mem_flatMap, List.mem_dedup, List.mem_map, Prod.mk.injEq, JobKey.mk.injEq]
  constructor
  · rintro ⟨_, one, _, other, _, current, ⟨rfl, rfl⟩, rfl⟩
    exact ⟨one, other, current⟩
  · rintro ⟨one, other, current⟩
    exact ⟨instanceId, one, jobUuid, other, definition, current, ⟨rfl, rfl⟩, rfl⟩

/-- The definition of a job among those of all. -/
theorem mapGet_definitionRows {running : List RunningRow} {row : RunningRow}
    (mirrored : HasDefinition store row.job definition)
    (listed : row ∈ running) : mapGet Prod.fst (store.definitionRows running) row.job = some (row.job, definition) := by
  have there : (row.job, definition) ∈ store.definitionRows running := by
    refine mem_definitionRows.mpr ⟨List.mem_map_of_mem listed, List.mem_map_of_mem listed, ?_⟩
    rw [mirrored.current]
    exact List.mem_singleton_self _
  have isFound : (mapGet Prod.fst (store.definitionRows running) row.job).isSome = true :=
    mapGet_isSome.mpr ⟨_, there, rfl⟩
  obtain ⟨entry, found⟩ := Option.isSome_iff_exists.mp isFound
  obtain ⟨fetched, same⟩ := mapGet_mem found
  have current := (mem_definitionRows.mp fetched).2.2
  rw [same, mirrored.current, List.mem_singleton] at current
  rw [found, ← current, ← same]

theorem progressEntry_eq (executes : Executes store job startedAt) (mirrored : HasDefinition store job definition)
    {row : RunningRow} (listed : row ∈ store.runningRows) (same : row.job = job) :
    store.progressEntry clock store.runningRows row =
      some (job, progressOf definition (store.finishedSteps job startedAt)) := by
  subst same
  rw [ScreenStore.progressEntry, mapGet_definitionRows mirrored listed]
  simp only
  rw [if_neg mirrored.steps, filter_historyRows listed (startedAt_of_listed executes listed rfl)]

/-- The overview has the run that is in flight. -/
theorem mapGet_runningStepProgress (executes : Executes store job startedAt)
    (mirrored : HasDefinition store job definition)
    {row : RunningRow} (listed : row ∈ store.runningRows) (same : row.job = job) :
    mapGet Prod.fst (runningStepProgress store clock store.runningRows) job =
      some (job, progressOf definition (store.finishedSteps job startedAt)) := by
  have there : (job, progressOf definition (store.finishedSteps job startedAt)) ∈
      runningStepProgress store clock store.runningRows :=
    List.mem_filterMap.mpr ⟨row, listed, progressEntry_eq executes mirrored listed same⟩
  have isFound : (mapGet Prod.fst (runningStepProgress store clock store.runningRows) job).isSome = true :=
    mapGet_isSome.mpr ⟨_, there, rfl⟩
  obtain ⟨entry, found⟩ := Option.isSome_iff_exists.mp isFound
  obtain ⟨fetched, own⟩ := mapGet_mem found
  obtain ⟨other, member, gives⟩ := List.mem_filterMap.mp fetched
  have others : other.job = job := by
    rw [← own]
    unfold ScreenStore.progressEntry at gives
    split at gives
    · cases gives
    · split at gives
      · cases gives
      · cases gives
        rfl
  rw [found, ← gives, progressEntry_eq executes mirrored member others]

/-- **The overview** follows the flow of the job from the last step that its run has
finished. -/
theorem getRunningJobs_step (executes : Executes store job startedAt) (mirrored : HasDefinition store job definition)
    {row : RunningJob} (listed : row ∈ getRunningJobs store clock now) (same : row.job = job) :
    row.currentStepId =
      inferRunningStep definition ((store.finishedSteps job startedAt).map JobHistoryRow.completed) := by
  obtain ⟨shown, member, rfl⟩ := List.mem_map.mp listed
  replace same : shown.job = job := same
  change ((mapGet Prod.fst (runningStepProgress store clock store.runningRows) shown.job).map Prod.snd).elim
    shown.currentStepId (·.currentStepId) = _
  rw [same, mapGet_runningStepProgress executes mirrored member same]
  rfl

theorem completedSteps_eq {activity : JobActivity} (started : activity.startedAt = some startedAt) :
    (getCurrentRun store job activity now).completedSteps =
      (store.finishedSteps job startedAt).map JobHistoryRow.currentRunStep := by
  simp only [getCurrentRun, started, ScreenStore.finishedSteps]
  refine congrArg (fun rows => (sortBy bySqlInstanceId rows).map JobHistoryRow.currentRunStep) ?_
  refine List.filter_congr fun row _ => ?_
  rw [Bool.eq_iff_iff, decide_eq_true_eq, decide_eq_true_eq, job_eq_iff, and_assoc]

theorem ordered_ne_nil (mirrored : HasDefinition store job definition) : definition.ordered ≠ [] := by
  intro empty
  refine mirrored.steps (List.length_eq_zero_iff.mp ?_)
  have kept : definition.ordered.length = definition.steps.length := length_sortBy
  rw [← kept, empty, List.length_nil]

/-- **The statistics** follow it too, and have the steps that were finished. -/
theorem getJobStats_step (executes : Executes store job startedAt) (mirrored : HasDefinition store job definition) :
    ∃ run, (getJobStats store job now).currentRun = some run ∧ run.startedAt = some startedAt ∧
      run.completedSteps = (store.finishedSteps job startedAt).map JobHistoryRow.currentRunStep ∧
      run.currentStepId =
        inferRunningStep definition ((store.finishedSteps job startedAt).map JobHistoryRow.completed) := by
  obtain ⟨activity, there, own, executing, started⟩ := executes.activity
  have found : (store.jobActivity.rows.find? fun row => row.job = job) = some activity :=
    (find_eq_some store.jobActivity.unique).mpr ⟨there, own⟩
  have completed : (getCurrentRun store job activity.toJobActivity now).completedSteps = _ := completedSteps_eq started
  refine ⟨getCurrentRun store job activity.toJobActivity now, ?_, started, completed, ?_⟩
  · rw [getJobStats, found, Option.filter_some, if_pos (decide_eq_true executing)]
    rfl
  · have derived : (getCurrentRun store job activity.toJobActivity now).currentStepId = inferRunningStep definition
        ((getCurrentRun store job activity.toJobActivity now).completedSteps.map CurrentRunStep.completed) := by
      simp only [getCurrentRun, started, mirrored.current, Option.isSome_some, if_true,
        List.head?_cons, Option.elim_some,
        Option.bind_some, if_neg (ordered_ne_nil mirrored)]
    rw [derived, completed, List.map_map]
    rfl

/-- A job that is there, on an instance that is not detached, is listed while it runs. -/
theorem exists_listed (executes : Executes store job startedAt) {instanceRow : DetachableInstance} {worker : WorkersRow}
    {row : JobsRow} (attached : instanceRow ∈ store.instances.rows) (of : instanceRow.id = job.instanceId)
    (kept : instanceRow.detachedAt = none) (owned : store.workers instanceRow.workerId = some worker)
    (there : store.tables.jobs job = some row) (present : row.deletedAt = none) :
    ∃ listed ∈ getRunningJobs store clock now, listed.job = job := by
  obtain ⟨activity, member, own, executing, -⟩ := executes.activity
  have found : (store.instances.rows.find? fun held => held.id = activity.job.instanceId ∧ held.detachedAt = none) =
      some instanceRow := by
    cases first : store.instances.rows.find? fun held => held.id = activity.job.instanceId ∧ held.detachedAt = none with
    | none => exact absurd (decide_eq_true ⟨own ▸ of, kept⟩) (List.find?_eq_none.mp first instanceRow attached)
    | some other =>
      have same := List.find?_some first
      rw [decide_eq_true_eq, own] at same
      rw [store.instances.eq_of_key (List.mem_of_find?_eq_some first) attached (same.1.trans of.symm)]
  have listed : (⟨activity.job.instanceId, instanceRow.instanceName, worker.hostName, activity.job.jobUuid, row.name,
      activity.currentStepId, activity.currentStepName, activity.startedAt⟩ : RunningRow) ∈ store.runningRows := by
    refine mem_sortBy.mpr
      (List.mem_filterMap.mpr ⟨activity, List.mem_filter.mpr ⟨member, decide_eq_true executing⟩, ?_⟩)
    rw [found, own, there]
    simp only [Option.bind_eq_bind, Option.bind_some, owned, Option.filter_some, present, Option.isNone_none, if_true]
    rfl
  exact ⟨_, List.mem_map_of_mem listed, own⟩

end Runs

end RemoteSqlAgent
