import RemoteSqlAgent.CommandService
import RemoteSqlAgent.HistoryDelivery
import RemoteSqlAgent.KeyedTable
import RemoteSqlAgent.Sequencing
import RemoteSqlAgent.SnapshotAssembly
import Mathlib.Data.Prod.Lex

/-! Storing the history a worker sends. A row that is held already is ignored, the
mark of the instance only moves forward, and the last run of a job is written
beside the job, for the jobs of the batch. -/
namespace RemoteSqlAgent
open Js CallProgram

/-- A row of `job_history`. -/
structure JobHistoryRow where
  instanceId : JsString
  jobUuid : JsString
  sqlInstanceId : Int
  stepId : Int
  stepName : Option JsString
  runStatus : Int
  runDatetime : Int
  runDurationSeconds : Int
  message : Option JsString
  retriesAttempted : Int
  server : Option JsString
  sqlSeverity : Int
  sqlMessageId : Int
  deriving DecidableEq

namespace JobHistoryRow

/-- The unique index: msdb's own identity of the row. -/
def key (row : JobHistoryRow) : HistoryKey := (row.instanceId, row.sqlInstanceId)

def job (row : JobHistoryRow) : JobKey where
  instanceId := row.instanceId
  jobUuid := row.jobUuid

/-- `ORDER BY run_datetime, sql_instance_id`. -/
def moment (row : JobHistoryRow) : Int ×ₗ Int := toLex (row.runDatetime, row.sqlInstanceId)

end JobHistoryRow

-- The order of moments, from the decidable one of numbers.
instance momentPreorder : Preorder (Int ×ₗ Int) := (Prod.Lex.instLinearOrder Int Int).toPartialOrder.toPreorder

/-- The columns of a job that history fills. They are written together. -/
structure LastRun where
  lastRunStatus : Int
  lastRunAt : Int
  lastRunDurationSeconds : Int
  deriving DecidableEq

def JobHistoryRow.lastRun (row : JobHistoryRow) : LastRun where
  lastRunStatus := row.runStatus
  lastRunAt := row.runDatetime
  lastRunDurationSeconds := row.runDurationSeconds

structure IngestedRun where
  jobUuid : JsString
  sqlInstanceId : Int
  runStatus : Int
  runDatetime : Int
  runDurationSeconds : Int
  message : Option JsString
  deriving DecidableEq

def JobHistoryRow.run (row : JobHistoryRow) : IngestedRun where
  jobUuid := row.jobUuid
  sqlInstanceId := row.sqlInstanceId
  runStatus := row.runStatus
  runDatetime := row.runDatetime
  runDurationSeconds := row.runDurationSeconds
  message := row.message

structure HistoryIngestResult where
  inserted : Nat
  highWaterMark : Int
  /-- Outcomes of jobs that the call created, never those that were held already. -/
  newRuns : List IngestedRun

/-! ## Statements -/

inductive HistoryCall where
  | insertHistory (values : List JobHistoryRow)
  /-- `GREATEST` of the mark and this one. -/
  | raiseHighWaterMark (instanceId : JsString) (batchMax : Int)
  | selectHighWaterMark (instanceId : JsString)
  /-- The latest outcome of a job. -/
  | selectLatest (job : JobKey)
  | updateLastRun (job : JobKey) (latest : LastRun)

def HistoryAnswer : HistoryCall → Type
  | .insertHistory _ => Except JsString (List JobHistoryRow)
  | .raiseHighWaterMark _ _ => Except JsString Unit
  | .selectHighWaterMark _ => Except JsString Int
  | .selectLatest _ => Except JsString (Option LastRun)
  | .updateLastRun _ _ => Except JsString Unit

abbrev HistoryProgram (α : Type) := CallProgram HistoryCall HistoryAnswer JsString α

/-! ## Ingestion -/

/-- A row of history as it is stored, if it has a time. An invalid one cannot be
bound. -/
def historyValue (instanceId : JsString) (row : HistoryRow) : Option (Except JsString JobHistoryRow) :=
  (fromTimestamp row.runDatetime).map fun
    | none => .error (js "Invalid time value")
    | some runDatetime => .ok {
        instanceId := instanceId
        jobUuid := row.jobUuid
        sqlInstanceId := row.instanceId
        stepId := row.stepId
        stepName := orNull row.stepName
        runStatus := row.runStatus
        runDatetime := runDatetime
        runDurationSeconds := row.runDurationSeconds
        message := orNull row.message
        retriesAttempted := row.retriesAttempted
        server := orNull row.server
        sqlSeverity := row.sqlSeverity
        sqlMessageId := row.sqlMessageId }

/-- `Math.max` of the ids of a batch that has rows. -/
def batchMax (values : List JobHistoryRow) : Int := (values.map (·.sqlInstanceId)).max?.getD 0

/-- Refresh the last run of one job. Only outcomes of the job count, not those of
its steps. -/
def refreshLastRun (job : JobKey) : HistoryProgram PUnit :=
  .call (.selectLatest job) fun selected : Except JsString (Option LastRun) => do
    match ← orThrow selected with
    | none => return ⟨⟩
    | some latest => .call (.updateLastRun job latest) orThrow

def refreshLastRunSummary (instanceId : JsString) (jobUuids : List JsString) : HistoryProgram PUnit :=
  jobUuids.forM fun jobUuid => refreshLastRun ⟨instanceId, jobUuid⟩

/-- The answer to a batch that brings nothing. -/
def unchangedResult (instanceId : JsString) : HistoryProgram HistoryIngestResult :=
  .call (.selectHighWaterMark instanceId) fun selected : Except JsString Int => do
    let current ← orThrow selected
    return { inserted := 0, highWaterMark := current, newRuns := [] }

/-- Write the rows of a batch that has some. -/
def storeHistory (instanceId : JsString) (values : List JobHistoryRow) : HistoryProgram HistoryIngestResult :=
  .call (.insertHistory values) fun returned : Except JsString (List JobHistoryRow) => do
    let inserted ← orThrow returned
    .call (.raiseHighWaterMark instanceId (batchMax values)) fun raised : Except JsString Unit => do
      let _ ← orThrow raised
      refreshLastRunSummary instanceId (values.map (·.jobUuid)).eraseDups
      return {
        inserted := inserted.length
        highWaterMark := batchMax values
        newRuns := (inserted.filter fun row => row.stepId = 0).map (·.run) }

/-- Insert history rows, ignoring any that are held. -/
def ingestHistory (instanceId : JsString) (rows : List HistoryRow) : HistoryProgram HistoryIngestResult :=
  if rows = [] then unchangedResult instanceId
  else
    match rows.filterMap (historyValue instanceId) with
    | [] => unchangedResult instanceId
    | bound =>
      match bound.mapM id with
      | .error message => .throw message
      | .ok values => storeHistory instanceId values

/-! ## The database -/

/-- What the control plane holds of instances: their history, its mark, and their
jobs with the last run of each. -/
structure MirrorStore where
  jobHistory : KeyedTable JobHistoryRow.key
  syncState : JsString → Option Int
  tables : JobTables
  lastRun : JobKey → Option LastRun

namespace MirrorStore

def empty : MirrorStore where
  jobHistory := .empty
  syncState _ := none
  tables := .empty
  lastRun _ := none

/-- The job has a row in `jobs`. -/
def Mirrored (store : MirrorStore) (job : JobKey) : Prop := (store.tables.jobs job).isSome = true

instance (store : MirrorStore) (job : JobKey) : Decidable (store.Mirrored job) :=
  inferInstanceAs (Decidable (_ = true))

/-- The outcomes that are stored of a job. -/
def outcomes (store : MirrorStore) (job : JobKey) : List JobHistoryRow :=
  store.jobHistory.rows.filter fun row => row.job = job ∧ row.stepId = 0

/-- The outcome of a job with the latest run time, and of those the greatest id. -/
def latest (store : MirrorStore) (job : JobKey) : Option JobHistoryRow :=
  (store.outcomes job).argmax JobHistoryRow.moment

def insertHistory (store : MirrorStore) (values : List JobHistoryRow) : MirrorStore :=
  { store with jobHistory := (store.jobHistory.insertNew values).1 }

/-- The mark after one more batch. -/
def raised (current : Option Int) (mark : Int) : Int := current.elim mark fun current => max current mark

def raiseHighWaterMark (store : MirrorStore) (instanceId : JsString) (mark : Int) : MirrorStore :=
  { store with
    syncState := Function.update store.syncState instanceId (some (raised (store.syncState instanceId) mark)) }

/-- Write the last run of a job, if the job has a row. -/
def setLastRun (store : MirrorStore) (job : JobKey) (latest : LastRun) : MirrorStore :=
  if store.Mirrored job then { store with lastRun := Function.update store.lastRun job (some latest) } else store

/-- Refresh the last run of a job from its history. -/
def refresh (store : MirrorStore) (job : JobKey) : MirrorStore :=
  match store.latest job with
  | none => store
  | some row => store.setLastRun job row.lastRun

/-- Store a batch that has rows. -/
def ingest (store : MirrorStore) (instanceId : JsString) (values : List JobHistoryRow) : MirrorStore :=
  (values.map (·.jobUuid)).eraseDups.foldl (fun store jobUuid => store.refresh ⟨instanceId, jobUuid⟩)
    ((store.insertHistory values).raiseHighWaterMark instanceId (batchMax values))

end MirrorStore

/-- The answer of a database in order. -/
def HistoryCall.respond (store : MirrorStore) : (call : HistoryCall) → HistoryAnswer call × MirrorStore
  | .insertHistory values => (.ok (store.jobHistory.insertNew values).2, store.insertHistory values)
  | .raiseHighWaterMark instanceId mark => (.ok (), store.raiseHighWaterMark instanceId mark)
  | .selectHighWaterMark instanceId => (.ok ((store.syncState instanceId).getD 0), store)
  | .selectLatest job => (.ok ((store.latest job).map (·.lastRun)), store)
  | .updateLastRun job latest => (.ok (), store.setLastRun job latest)

/-! ## What a batch does -/

/-- The rows of a batch as they are stored. -/
def historyValues (instanceId : JsString) (rows : List HistoryRow) : List JobHistoryRow :=
  rows.filterMap fun row => (historyValue instanceId row).bind Except.toOption

/-- No time of the rows is out of the range of dates. -/
def WellDated (rows : List HistoryRow) : Prop := ∀ row ∈ rows, fromTimestamp row.runDatetime ≠ some none

namespace MirrorStore
variable {store : MirrorStore}

@[simp] theorem setLastRun_jobHistory (job : JobKey) (latest : LastRun) :
    (store.setLastRun job latest).jobHistory = store.jobHistory := by
  unfold setLastRun
  split <;> rfl

@[simp] theorem setLastRun_syncState (job : JobKey) (latest : LastRun) :
    (store.setLastRun job latest).syncState = store.syncState := by
  unfold setLastRun
  split <;> rfl

@[simp] theorem setLastRun_tables (job : JobKey) (latest : LastRun) :
    (store.setLastRun job latest).tables = store.tables := by
  unfold setLastRun
  split <;> rfl

@[simp] theorem refresh_jobHistory (job : JobKey) : (store.refresh job).jobHistory = store.jobHistory := by
  unfold refresh
  split
  · rfl
  · exact setLastRun_jobHistory _ _

@[simp] theorem refresh_syncState (job : JobKey) : (store.refresh job).syncState = store.syncState := by
  unfold refresh
  split
  · rfl
  · exact setLastRun_syncState _ _

@[simp] theorem refresh_tables (job : JobKey) : (store.refresh job).tables = store.tables := by
  unfold refresh
  split
  · rfl
  · exact setLastRun_tables _ _

/-- What a refresh makes of the last run of a job: that of its latest outcome, if
it has one. -/
def refreshed (store : MirrorStore) (job : JobKey) : Option LastRun :=
  if store.Mirrored job then ((store.latest job).map (·.lastRun)).or (store.lastRun job) else store.lastRun job

theorem lastRun_refresh (job other : JobKey) :
    (store.refresh job).lastRun other = if other = job then store.refreshed other else store.lastRun other := by
  by_cases same : other = job
  · subst same
    rw [if_pos rfl, refreshed]
    unfold refresh
    cases store.latest other with
    | none =>
      rw [Option.map_none, Option.none_or, ite_self]
    | some row =>
      by_cases mirrored : store.Mirrored other
      · simp only [setLastRun, mirrored, ↓reduceIte, Function.update_self, Option.map_some, Option.some_or]
      · simp only [setLastRun, mirrored, ↓reduceIte]
  · rw [if_neg same]
    unfold refresh
    cases store.latest job with
    | none => rfl
    | some row =>
      by_cases mirrored : store.Mirrored job
      · simp only [setLastRun, mirrored, ↓reduceIte, ne_eq, same, not_false_eq_true, Function.update_of_ne]
      · simp only [setLastRun, mirrored, ↓reduceIte]

/-- A second refresh finds what the first one found. -/
theorem refreshed_refresh (job other : JobKey) : (store.refresh job).refreshed other = store.refreshed other := by
  have found : (store.refresh job).latest other = store.latest other := by
    rw [latest, latest, outcomes, outcomes, refresh_jobHistory]
  have mirrors : (store.refresh job).Mirrored other ↔ store.Mirrored other := by
    rw [Mirrored, Mirrored, refresh_tables]
  rw [refreshed, found, lastRun_refresh]
  by_cases same : other = job
  · rw [if_pos same, refreshed]
    by_cases mirrored : store.Mirrored other
    · rw [if_pos (mirrors.mpr mirrored), if_pos mirrored]
      cases store.latest other <;> rfl
    · rw [if_neg fun there => mirrored (mirrors.mp there), if_neg mirrored]
  · rw [if_neg same, refreshed]
    simp only [mirrors]

/-- Refreshing some jobs of an instance changes their last runs, and nothing else. -/
theorem foldl_refresh (store : MirrorStore) (instanceId : JsString) (jobUuids : List JsString) :
    let after := jobUuids.foldl (fun store jobUuid => store.refresh ⟨instanceId, jobUuid⟩) store
    after.jobHistory = store.jobHistory ∧ after.syncState = store.syncState ∧ after.tables = store.tables ∧
      ∀ job, after.lastRun job =
        if job.instanceId = instanceId ∧ job.jobUuid ∈ jobUuids then store.refreshed job else store.lastRun job := by
  induction jobUuids generalizing store with
  | nil => simp
  | cons jobUuid rest ih =>
    obtain ⟨history, marks, tables, runs⟩ := ih (store.refresh ⟨instanceId, jobUuid⟩)
    refine ⟨history.trans (refresh_jobHistory _), marks.trans (refresh_syncState _), tables.trans (refresh_tables _),
      fun job => ?_⟩
    rw [List.foldl_cons, runs, refreshed_refresh, lastRun_refresh]
    by_cases here : job = ⟨instanceId, jobUuid⟩
    · subst here
      simp
    · have other : job.instanceId = instanceId → job.jobUuid ≠ jobUuid := fun place uuid => here (by
        cases job
        simp_all)
      by_cases place : job.instanceId = instanceId
      · simp [here, place, other place]
      · simp [here, place]

@[simp] theorem ingest_jobHistory (instanceId : JsString) (values : List JobHistoryRow) :
    (store.ingest instanceId values).jobHistory = (store.jobHistory.insertNew values).1 :=
  (foldl_refresh _ instanceId _).1

@[simp] theorem ingest_syncState (instanceId : JsString) (values : List JobHistoryRow) :
    (store.ingest instanceId values).syncState = Function.update store.syncState instanceId
      (some (raised (store.syncState instanceId) (batchMax values))) :=
  (foldl_refresh _ instanceId _).2.1

@[simp] theorem ingest_tables (instanceId : JsString) (values : List JobHistoryRow) :
    (store.ingest instanceId values).tables = store.tables := (foldl_refresh _ instanceId _).2.2.1

/-- The last run of each job of a batch is that of its latest outcome then. -/
theorem ingest_lastRun (instanceId : JsString) (values : List JobHistoryRow) (job : JobKey) :
    (store.ingest instanceId values).lastRun job =
      if job.instanceId = instanceId ∧ job.jobUuid ∈ values.map (·.jobUuid) then
        (store.insertHistory values).refreshed job
      else store.lastRun job := by
  rw [ingest, (foldl_refresh _ instanceId _).2.2.2]
  simp only [List.mem_eraseDups]
  rfl

end MirrorStore

/-! ## The program -/

theorem perform_refreshLastRun (store : MirrorStore) (job : JobKey) :
    perform HistoryCall.respond store (refreshLastRun job) = (.ok ⟨⟩, store.refresh job) := by
  change perform HistoryCall.respond store
    (match (store.latest job).map (·.lastRun) with
      | none => pure ⟨⟩
      | some latest => .call (.updateLastRun job latest) orThrow) = _
  rw [MirrorStore.refresh]
  cases store.latest job <;> rfl

theorem perform_storeHistory (store : MirrorStore) (instanceId : JsString) (values : List JobHistoryRow) :
    perform HistoryCall.respond store (storeHistory instanceId values) = (.ok {
      inserted := (store.jobHistory.insertNew values).2.length
      highWaterMark := batchMax values
      newRuns := ((store.jobHistory.insertNew values).2.filter fun row => row.stepId = 0).map (·.run) },
      store.ingest instanceId values) := by
  have refreshes := perform_forM ((store.insertHistory values).raiseHighWaterMark instanceId (batchMax values))
    (values.map (·.jobUuid)).eraseDups fun store jobUuid _ => perform_refreshLastRun store ⟨instanceId, jobUuid⟩
  exact perform_bind refreshes

/-- Rows that are dated are bound as they are. -/
theorem historyValue_of_dated (instanceId : JsString) {rows : List HistoryRow} (dated : WellDated rows) :
    rows.filterMap (historyValue instanceId) = (historyValues instanceId rows).map Except.ok := by
  induction rows with
  | nil => rfl
  | cons row rest ih =>
    have later := ih fun other member => dated other (List.mem_cons_of_mem _ member)
    have valid := dated row List.mem_cons_self
    rw [historyValues, List.filterMap_cons, List.filterMap_cons]
    cases time : fromTimestamp row.runDatetime with
    | none =>
      simp only [historyValue, time, Option.map_none, Option.bind_none]
      exact later
    | some found =>
      cases found with
      | none => exact absurd time valid
      | some runDatetime =>
        simp only [historyValue, time, Option.map_some, Option.bind_some, Except.toOption, List.map_cons]
        exact congrArg _ later

private theorem mapM_ok (values : List JobHistoryRow) :
    (values.map Except.ok).mapM (id : Except JsString JobHistoryRow → _) = .ok values := by
  induction values with
  | nil => rfl
  | cons value rest ih =>
    rw [List.map_cons, List.mapM_cons, ih]
    rfl

/-- A dated batch is stored if it leaves rows. -/
theorem ingestHistory_of_dated {instanceId : JsString} {rows : List HistoryRow} (dated : WellDated rows) :
    ingestHistory instanceId rows = if historyValues instanceId rows = [] then unchangedResult instanceId
      else storeHistory instanceId (historyValues instanceId rows) := by
  have bound := historyValue_of_dated instanceId dated
  unfold ingestHistory
  by_cases bare : historyValues instanceId rows = []
  · rw [bare, List.map_nil] at bound
    rw [if_pos bare]
    split
    · rfl
    · rw [bound]
  · have some : rows ≠ [] := fun empty => bare (by rw [empty]; rfl)
    rw [if_neg some, if_neg bare, bound]
    cases values : historyValues instanceId rows with
    | nil => exact absurd values bare
    | cons value rest =>
      have whole := mapM_ok (value :: rest)
      rw [List.map_cons] at whole ⊢
      simp only [whole]

/-- What ingestion does to the database, and which runs it reports as new. -/
theorem perform_ingestHistory (store : MirrorStore) (instanceId : JsString) {rows : List HistoryRow}
    (dated : WellDated rows) :
    ∃ result, perform HistoryCall.respond store (ingestHistory instanceId rows) =
      (.ok result, if historyValues instanceId rows = [] then store
        else store.ingest instanceId (historyValues instanceId rows)) ∧
    result.newRuns =
      ((store.jobHistory.insertNew (historyValues instanceId rows)).2.filter fun row =>
        row.stepId = 0).map (·.run) := by
  rw [ingestHistory_of_dated dated]
  by_cases bare : historyValues instanceId rows = []
  · rw [if_pos bare, if_pos bare, bare]
    exact ⟨_, rfl, rfl⟩
  · rw [if_neg bare, if_neg bare, perform_storeHistory]
    exact ⟨_, rfl, rfl⟩

end RemoteSqlAgent
