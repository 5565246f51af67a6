import RemoteSqlAgent.RunningJobs

/-! The timeline of a run in flight, and whether it shows the step that the other screens
name. A step that is finished has a bar where msdb says it ran; the one that is running has
a bar from where the last one ended, unless it has another already. -/
namespace RemoteSqlAgent
open Js

structure TimelineStep where
  stepId : Int
  name : JsString
  /-- From the start of the run. -/
  offsetSeconds : Int
  durationSeconds : Int
  runStatus : Option Int
  message : Option JsString
  running : Bool

structure TimelineRun where
  startedAt : Int
  totalSeconds : Int
  running : Bool
  runStatus : Option Int
  steps : List TimelineStep

/-- The bars so far, and where the last one ends. -/
structure DrawnSteps where
  steps : List TimelineStep
  cursor : Int

def DrawnSteps.blank : DrawnSteps := ⟨[], 0⟩

/-- `Step ${stepId}`. -/
def unnamedStep (stepId : Int) : JsString := js "Step " ++ js (toString stepId)

/-- The name that the definition has for a step. -/
def definedName (definition : JobDefinition) (stepId : Int) : JsString :=
  ((stepById definition stepId).map (·.name)).getD (unnamedStep stepId)

/-- Draw a step that is finished where it ran. -/
def drawFinished (definition : JobDefinition) (startMs : Int) (drawn : DrawnSteps) (done : CurrentRunStep) :
    DrawnSteps :=
  let offset := wholeSeconds (done.startedAt - startMs)
  { steps := drawn.steps ++ [{
      stepId := done.stepId
      name := done.stepName.getD (definedName definition done.stepId)
      offsetSeconds := offset
      durationSeconds := done.runDurationSeconds
      runStatus := some done.runStatus
      message := done.message
      running := false }]
    cursor := offset + done.runDurationSeconds }

/-- Draw the step that is running, if it has no bar yet. -/
def drawRunning (definition : JobDefinition) (elapsed : Int) (drawn : DrawnSteps) (runningStepId : Option Int) :
    List TimelineStep :=
  match runningStepId with
  | none => drawn.steps
  | some stepId =>
    if drawn.steps.any fun step => step.stepId = stepId then drawn.steps
    else drawn.steps ++ [{
      stepId := stepId
      name := definedName definition stepId
      offsetSeconds := drawn.cursor
      durationSeconds := max 0 (elapsed - drawn.cursor)
      runStatus := none
      message := none
      running := true }]

/-- The timeline of the run in flight. -/
def buildLiveRun (definition : Option JobDefinition) (stats : Option JobStats) (nowMs : Int) : Option TimelineRun := do
  let current ← stats.bind (·.currentRun)
  let definition ← definition
  let startMs ← current.startedAt
  let elapsed := wholeSeconds (nowMs - startMs)
  let drawn := current.completedSteps.foldl (drawFinished definition startMs) .blank
  let runningStepId := inferRunningStep definition (current.completedSteps.map CurrentRunStep.completed)
  return {
    startedAt := startMs
    totalSeconds := max elapsed 1
    running := true
    runStatus := none
    steps := drawRunning definition elapsed drawn runningStepId }

/-! ## The bar of the running step -/

section Bars
variable {definition : JobDefinition} {startMs elapsed : Int} {drawn : DrawnSteps} {completed : List CurrentRunStep}

/-- Each finished step gets a bar that is not running. -/
theorem drawn_finished :
    ((completed.foldl (drawFinished definition startMs) drawn).steps.map fun step => (step.stepId, step.running)) =
    (drawn.steps.map fun step => (step.stepId, step.running)) ++ completed.map fun done => (done.stepId, false) := by
  induction completed generalizing drawn with
  | nil => exact (List.append_nil _).symm
  | cons done rest ih =>
    rw [List.foldl_cons, ih, drawFinished, List.map_append, List.append_assoc]
    rfl

/-- A running step has a bar of its own only if it has none yet. -/
theorem drawRunning_running {runningStepId : Option Int} (still : ∀ step ∈ drawn.steps, step.running = false) :
    ((drawRunning definition elapsed drawn runningStepId).filter (·.running)).map (·.stepId) =
      (runningStepId.filter fun stepId => stepId ∉ drawn.steps.map (·.stepId)).toList := by
  have none : drawn.steps.filter (·.running) = [] := by
    refine List.filter_eq_nil_iff.mpr fun step member => ?_
    rw [still step member]
    exact Bool.false_ne_true
  cases runningStepId with
  | none => rw [drawRunning, none]; rfl
  | some stepId =>
    rw [drawRunning]
    by_cases there : stepId ∈ drawn.steps.map (·.stepId)
    · have drawnAlready : (drawn.steps.any fun step => step.stepId = stepId) = true := by
        obtain ⟨step, member, same⟩ := List.mem_map.mp there
        exact List.any_eq_true.mpr ⟨step, member, decide_eq_true same⟩
      rw [if_pos drawnAlready, none, Option.filter_some, if_neg (by simpa using there)]
      rfl
    · have fresh : ¬ (drawn.steps.any fun step => step.stepId = stepId) = true := by
        intro found
        obtain ⟨step, member, same⟩ := List.any_eq_true.mp found
        exact there (List.mem_map.mpr ⟨step, member, of_decide_eq_true same⟩)
      rw [if_neg fresh, List.filter_append, none, Option.filter_some, if_pos (decide_eq_true there)]
      rfl

end Bars

/-! ## The screens together -/

/-- The run is about to retry the step that it has just finished, or goes on with a step that
it has finished before. -/
def Returns (definition : JobDefinition) (completed : List CompletedStep) : Prop :=
  ∃ last ∈ completed.getLast?, ∃ step ∈ definition.steps.find? (fun step => decide (step.stepId = last.stepId)),
    last.runStatus = RunStatus.Retry ∨ last.runStatus ≠ RunStatus.Cancelled ∧
      ∃ next ∈ nextStepAfter definition step (last.runStatus = RunStatus.Succeeded), next ∈ completed.map (·.stepId)

theorem returns_iff {definition : JobDefinition} {completed : List CompletedStep} :
    Returns definition completed ↔
      ∃ stepId ∈ inferRunningStep definition completed, stepId ∈ completed.map (·.stepId) := by
  unfold Returns inferRunningStep
  cases isLast : completed.getLast? with
  | none =>
    rw [List.getLast?_eq_none_iff.mp isLast]
    simp
  | some last =>
    have member : last.stepId ∈ completed.map (·.stepId) := List.mem_map_of_mem (List.mem_of_getLast? isLast)
    cases found : definition.steps.find? fun step => decide (step.stepId = last.stepId) with
    | none => simp [found]
    | some step =>
      have same := List.find?_some found
      rw [decide_eq_true_eq] at same
      simp only [Option.mem_some_iff, exists_eq_left', found]
      by_cases retry : last.runStatus = RunStatus.Retry
      · simp only [if_pos retry, Option.mem_some_iff, exists_eq_left']
        exact iff_of_true (.inl retry) (same ▸ member)
      · by_cases cancelled : last.runStatus = RunStatus.Cancelled
        · simp [cancelled]
        · simp [retry, cancelled]

/-- All the screens name one step: the overview where it lists the job, the statistics, and
the timeline, which has a running bar for it and no other. -/
structure ScreensAgree (store : ScreenStore) (job : JobKey) (definition : JobDefinition) (runningStepId : Option Int)
    (clock overviewNow statsNow nowMs : Int) : Prop where
  overview : ∀ row ∈ getRunningJobs store clock overviewNow, row.job = job → row.currentStepId = runningStepId
  statistics : ∃ run, (getJobStats store job statsNow).currentRun = some run ∧ run.currentStepId = runningStepId
  timeline : ∃ run, buildLiveRun (some definition) (some (getJobStats store job statsNow)) nowMs = some run ∧
    (run.steps.filter (·.running)).map (·.stepId) = runningStepId.toList

section Screens
variable {store : ScreenStore} {job : JobKey} {startedAt clock overviewNow statsNow nowMs : Int}
  {definition : JobDefinition}

theorem buildLiveRun_steps {stats : JobStats} {current : CurrentRun} (found : stats.currentRun = some current)
    (started : current.startedAt = some startedAt) :
    ∃ run, buildLiveRun (some definition) (some stats) nowMs = some run ∧
      run.steps = drawRunning definition (wholeSeconds (nowMs - startedAt))
        (current.completedSteps.foldl (drawFinished definition startedAt) .blank)
        (inferRunningStep definition (current.completedSteps.map CurrentRunStep.completed)) := by
  refine ⟨⟨startedAt, max (wholeSeconds (nowMs - startedAt)) 1, true, none, _⟩, ?_, rfl⟩
  simp only [buildLiveRun, Option.bind_eq_bind, Option.bind_some, found, started]
  rfl

/-- The running bars of the timeline are those of the running step, if that was not finished
before. -/
theorem buildLiveRun_running (executes : Executes store job startedAt) (mirrored : HasDefinition store job definition) :
    ∃ run, buildLiveRun (some definition) (some (getJobStats store job statsNow)) nowMs = some run ∧
      (run.steps.filter (·.running)).map (·.stepId) =
        ((inferRunningStep definition
          ((store.finishedSteps job startedAt).map JobHistoryRow.completed)).filter fun stepId =>
          stepId ∉ ((store.finishedSteps job startedAt).map JobHistoryRow.completed).map (·.stepId)).toList := by
  obtain ⟨current, found, started, completed, -⟩ := getJobStats_step executes mirrored
  have same : current.completedSteps.map CurrentRunStep.completed =
      (store.finishedSteps job startedAt).map JobHistoryRow.completed := by
    rw [completed, List.map_map]
    rfl
  have bars := @drawn_finished definition startedAt .blank current.completedSteps
  have still :
      ∀ step ∈ (current.completedSteps.foldl (drawFinished definition startedAt) .blank).steps,
        step.running = false := by
    intro step member
    have listed := List.mem_map_of_mem (f := fun step : TimelineStep => (step.stepId, step.running)) member
    rw [bars] at listed
    obtain ⟨done, -, same⟩ := List.mem_map.mp listed
    exact (Prod.ext_iff.mp same).2.symm
  have ids : (current.completedSteps.foldl (drawFinished definition startedAt) .blank).steps.map (·.stepId) =
      (current.completedSteps.map CurrentRunStep.completed).map (·.stepId) := by
    have firsts := congrArg (List.map Prod.fst) bars
    rw [List.map_append, List.map_map, List.map_map, List.map_map] at firsts
    rw [List.map_map]
    exact firsts
  obtain ⟨run, built, steps⟩ := buildLiveRun_steps found started
  refine ⟨run, built, ?_⟩
  rw [steps, drawRunning_running still, ids, same]

/-- **The screens name the same running step exactly if the run does not return** to a step
that it has finished. -/
theorem screens_agree_iff (executes : Executes store job startedAt) (mirrored : HasDefinition store job definition) :
    ScreensAgree store job definition
      (inferRunningStep definition ((store.finishedSteps job startedAt).map JobHistoryRow.completed)) clock overviewNow
      statsNow nowMs ↔
    ¬ Returns definition ((store.finishedSteps job startedAt).map JobHistoryRow.completed) := by
  obtain ⟨run, built, bars⟩ : ∃ run,
    buildLiveRun (some definition) (some (getJobStats store job statsNow)) nowMs = some run ∧ _ :=
    buildLiveRun_running executes mirrored
  rw [returns_iff]
  constructor
  · rintro ⟨-, -, other, also, shown⟩ ⟨stepId, inferred, finished⟩
    cases built.symm.trans also
    rw [bars, show inferRunningStep definition _ = some stepId from inferred, Option.filter_some,
      if_neg (by simpa using finished)] at shown
    cases shown
  · intro fresh
    obtain ⟨current, found, -, -, step⟩ := getJobStats_step executes mirrored
    refine ⟨fun row listed same => getRunningJobs_step executes mirrored listed same, ⟨current, found, step⟩, run,
      built, ?_⟩
    rw [bars]
    cases inferred : inferRunningStep definition ((store.finishedSteps job startedAt).map JobHistoryRow.completed) with
    | none => rfl
    | some stepId =>
      have new : stepId ∉ ((store.finishedSteps job startedAt).map JobHistoryRow.completed).map (·.stepId) :=
        fun finished => fresh ⟨stepId, inferred, finished⟩
      rw [Option.filter_some, if_pos (decide_eq_true new)]

end Screens

/-! ## A sample run -/

/-- Two steps, of which the first may be tried again. -/
def sampleFlow : JobDefinition := sampleJob 1 [
  sampleStep 1 StepAction.GoToNextStep 0 StepAction.QuitWithFailure 0,
  sampleStep 2 StepAction.QuitWithSuccess 0 StepAction.QuitWithFailure 0]

/-- The job executes, and its first step has ended with this status. -/
def sampleScreens (runStatus : Int) : ScreenStore where
  jobActivity := {
    rows := [{
      job := ⟨js "i1", js "j1"⟩
      state := js "executing"
      currentStepId := some 0
      currentStepName := none
      startedAt := some 1700000000000
      lastExecutedStepAt := none
      nextScheduledRunAt := none
      lastRunOutcome := 1 }]
    unique := List.nodup_singleton _ }
  jobHistory := {
    rows := [{
      instanceId := js "i1"
      jobUuid := js "j1"
      sqlInstanceId := 1
      stepId := 1
      stepName := some (js "Run backup")
      runStatus := runStatus
      runDatetime := 1700000000000
      runDurationSeconds := 5
      message := none
      retriesAttempted := 0
      server := some (js "HOST1")
      sqlSeverity := 0
      sqlMessageId := 0 }]
    unique := List.nodup_singleton _ }
  tables := {
    jobs := fun _ => some {
      name := sampleFlow.name
      enabled := true
      categoryName := none
      ownerLoginName := some (js "sa")
      description := none
      currentVersionNo := 1
      currentDefinitionHash := some (js "h1")
      isDrifted := false
      driftDetectedAt := none
      deletedAt := none
      updatedAt := 1690000000000 }
    jobVersions := fun _ => [⟨1, sampleFlow, js "h1", .initial, none, none, 1690000000000⟩] }
  instances := {
    rows := [{ id := js "i1", workerId := js "w1", instanceName := js "MSSQLSERVER", detachedAt := none }]
    unique := List.nodup_singleton _ }
  workers := fun _ => some {
      hostName := js "HOST1"
      capabilities := []
      version := none
      maxCapabilityReported := none
      credentialPublicKeyPem := none
      credentialKeyFingerprint := none
      certSerial := none
      certExpiresAt := none
      connectedAt := none
      lastSeenAt := none
      lastRemoteAddress := none }

theorem sample_executes (runStatus : Int) : Executes (sampleScreens runStatus) ⟨js "i1", js "j1"⟩ 1700000000000 :=
  ⟨⟨_, List.mem_singleton_self _, rfl, rfl, rfl⟩⟩

theorem sample_mirror (runStatus : Int) : HasDefinition (sampleScreens runStatus) ⟨js "i1", js "j1"⟩ sampleFlow :=
  ⟨rfl, List.cons_ne_nil _ _⟩

/-- When the first step has succeeded, all the screens name the second. -/
theorem screens_agree_iff_succeeded : ScreensAgree (sampleScreens RunStatus.Succeeded) ⟨js "i1", js "j1"⟩ sampleFlow
    (some 2) 1700000010000 1700000010000 1700000010000 1700000010000 := by
  refine (screens_agree_iff (sample_executes RunStatus.Succeeded) (sample_mirror RunStatus.Succeeded)).mpr ?_
  rintro ⟨last, isLast, step, found, retry | ⟨-, next, isNext, finished⟩⟩
  · cases isLast
    exact absurd retry (by decide)
  · cases isLast
    cases found
    cases isNext
    exact absurd finished (by decide)

/-- **Counterexample.** A step that is about to be tried again has no running bar. -/
theorem retry_undrawn : ¬ ScreensAgree (sampleScreens RunStatus.Retry) ⟨js "i1", js "j1"⟩ sampleFlow
    (inferRunningStep sampleFlow [⟨1, RunStatus.Retry⟩]) 1700000010000 1700000010000 1700000010000 1700000010000 := by
  rintro ⟨-, -, run, built, shown⟩
  obtain ⟨other, also, bars⟩ := @buildLiveRun_running _ _ _ 1700000010000 1700000010000 _
    (sample_executes RunStatus.Retry) (sample_mirror RunStatus.Retry)
  cases built.symm.trans also
  rw [bars] at shown
  exact absurd shown (by decide)

end RemoteSqlAgent
