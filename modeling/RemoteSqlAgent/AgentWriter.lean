import RemoteSqlAgent.JsArray
import RemoteSqlAgent.SqlCalls

/-! Write access to msdb, through the documented Agent procedures. A job is
replaced in one transaction: msdb matches the definition or keeps what it had. -/
namespace RemoteSqlAgent
open Js CallProgram

/-- msdb wants NULL, not an empty string, for what is not set. -/
def nullIfEmpty (value : Option JsString) : Option JsString := value.filter (· ≠ [])

/-- The value bound for a flag. -/
def bit (value : Bool) : JsValue := .number (if value then 1 else 0)

/-- Execute one procedure on the pool, with the errors of msdb wrapped. -/
def executeOnPool (procedure : Procedure) (inputs : Inputs) : Sql Unit :=
  CallProgram.tryCatch (send (.onPool (.execute procedure inputs))) wrapSqlError

/-- Execute one procedure in the open transaction. -/
def executeIn (procedure : Procedure) (inputs : Inputs) : Sql Unit :=
  send (.inTransaction (.execute procedure inputs))

/-! ## Simple operations -/

def toggleJob (jobUuid : JsString) (enabled : Bool) : Sql Unit :=
  executeOnPool .sp_update_job [(js "job_id", .string jobUuid), (js "enabled", bit enabled)]

def startJob (jobUuid : JsString) (stepName : Option JsString) : Sql Unit :=
  executeOnPool .sp_start_job ((js "job_id", .string jobUuid) ::
    match nullIfEmpty stepName with
    | some name => [(js "step_name", .string name)]
    | none => [])

def stopJob (jobUuid : JsString) : Sql Unit :=
  executeOnPool .sp_stop_job [(js "job_id", .string jobUuid)]

def deleteJob (jobUuid : JsString) : Sql Unit :=
  executeOnPool .sp_delete_job [(js "job_id", .string jobUuid), (js "delete_unused_schedule", .number 1)]

/-! ## Job upsert -/

structure UpsertJobResult where
  jobUuid : JsString
  created : Bool

def jobExists (jobUuid : JsString) : Sql Bool := do
  let recordset : List Int ← send (.inTransaction (.jobPresent jobUuid))
  return !recordset.isEmpty

/-- The values that `sp_add_job` and `sp_update_job` both take as they are. -/
def notificationLevels (notifications : JobNotifications) : Inputs := [
  (js "notify_level_email", .number notifications.emailLevel),
  (js "notify_level_netsend", .number notifications.netsendLevel),
  (js "notify_level_page", .number notifications.pageLevel),
  (js "notify_level_eventlog", .number notifications.eventlogLevel),
  (js "delete_level", .number notifications.deleteLevel)]

def addJobInputs (definition : JobDefinition) : Inputs := [
    (js "job_name", .string definition.name),
    (js "enabled", bit definition.enabled),
    (js "description", nullable (nullIfEmpty definition.description)),
    (js "category_name", nullable (nullIfEmpty definition.categoryName)),
    (js "owner_login_name", nullable (nullIfEmpty definition.ownerLoginName))] ++
  notificationLevels definition.notifications ++ [
    (js "notify_email_operator_name", nullable (nullIfEmpty definition.notifications.emailOperatorName)),
    (js "notify_netsend_operator_name", nullable (nullIfEmpty definition.notifications.netsendOperatorName)),
    (js "notify_page_operator_name", nullable (nullIfEmpty definition.notifications.pageOperatorName))]

def addJob (definition : JobDefinition) : Sql JsString := do
  let job_id : Option JsString ← send (.inTransaction (.addJob (addJobInputs definition)))
  match nullIfEmpty job_id with
  | none => .throw (.other (js "sp_add_job did not return a job_id."))
  | some jobId => return toLowerCase jobId

/-- `sp_update_job` reads NULL as leave alone, so what is cleared is sent empty.
An owner cannot be empty. -/
def updateJobProperties (jobUuid : JsString) (definition : JobDefinition) : Sql Unit :=
  executeIn .sp_update_job ([
      (js "job_id", .string jobUuid),
      (js "new_name", .string definition.name),
      (js "enabled", bit definition.enabled),
      (js "description", .string (definition.description.getD [])),
      (js "category_name", .string (definition.categoryName.getD [])),
      (js "owner_login_name", nullable (nullIfEmpty definition.ownerLoginName))] ++
    notificationLevels definition.notifications ++ [
      (js "notify_email_operator_name", .string (definition.notifications.emailOperatorName.getD [])),
      (js "notify_netsend_operator_name", .string (definition.notifications.netsendOperatorName.getD [])),
      (js "notify_page_operator_name", .string (definition.notifications.pageOperatorName.getD []))])

def addJobStep (jobUuid : JsString) (step : JobStep) : Sql Unit :=
  executeIn .sp_add_jobstep [
    (js "job_id", .string jobUuid),
    (js "step_name", .string step.name),
    (js "subsystem", .string step.subsystem.text),
    (js "command", .string step.command),
    (js "database_name", nullable (nullIfEmpty step.databaseName)),
    (js "database_user_name", nullable (nullIfEmpty step.databaseUserName)),
    (js "on_success_action", .number step.onSuccessAction),
    (js "on_success_step_id", .number step.onSuccessStepId),
    (js "on_fail_action", .number step.onFailAction),
    (js "on_fail_step_id", .number step.onFailStepId),
    (js "retry_attempts", .number step.retryAttempts),
    (js "retry_interval", .number step.retryIntervalMinutes),
    (js "output_file_name", nullable (nullIfEmpty step.outputFileName)),
    (js "flags", .number step.flags),
    (js "proxy_name", nullable (nullIfEmpty step.proxyName))]

/-- A schedule as every procedure that writes one takes it. -/
def scheduleInputs (schedule : ScheduleDefinition) : Inputs := [
  (js "name", .string schedule.name),
  (js "enabled", bit schedule.enabled),
  (js "freq_type", .number schedule.freqType),
  (js "freq_interval", .number schedule.freqInterval),
  (js "freq_subday_type", .number schedule.freqSubdayType),
  (js "freq_subday_interval", .number schedule.freqSubdayInterval),
  (js "freq_relative_interval", .number schedule.freqRelativeInterval),
  (js "freq_recurrence_factor", .number schedule.freqRecurrenceFactor),
  (js "active_start_date", .number schedule.activeStartDate),
  (js "active_end_date", .number schedule.activeEndDate),
  (js "active_start_time", .number schedule.activeStartTime),
  (js "active_end_time", .number schedule.activeEndTime)]

/-- Make the schedules of the job match the definition, by name. -/
def reconcileJobSchedules (jobUuid : JsString) (schedules : List ScheduleDefinition) : Sql Unit := do
  let current : List JsString ← send (.inTransaction (.attachedSchedules jobUuid))
  let attached := current.eraseDups
  let wanted := schedules.map (·.name)
  schedules.forM fun schedule =>
    if schedule.name ∈ attached then executeIn .sp_update_schedule (scheduleInputs schedule)
    else executeIn .sp_add_jobschedule ((js "job_id", .string jobUuid) :: scheduleInputs schedule)
  attached.forM fun name =>
    if name ∈ wanted then pure ()
    else executeIn .sp_detach_schedule [(js "job_id", .string jobUuid), (js "name", .string name),
      (js "delete_unused_schedule", .number 1)]

/-- `jobUuid ? await jobExists(transaction, jobUuid) : false`. -/
def findJob (jobUuid : JsString) : Sql Bool :=
  if jobUuid ≠ [] then jobExists jobUuid else pure false

/-- The job to write: the one there is, emptied of its steps, or a new one. -/
def prepareJob (jobUuid : JsString) (definition : JobDefinition) : Sql UpsertJobResult := do
  let found ← findJob jobUuid
  if found then
    updateJobProperties jobUuid definition
    -- Step 0 means every step.
    executeIn .sp_delete_jobstep [(js "job_id", .string jobUuid), (js "step_id", .number 0)]
    return { jobUuid := jobUuid, created := false }
  else
    let effectiveJobId ← addJob definition
    return { jobUuid := effectiveJobId, created := true }

/-- Everything that is written of the job once it exists. -/
def fillJob (result : UpsertJobResult) (definition : JobDefinition) : Sql Unit := do
  (sortBy (fun a b : JobStep => a.stepId - b.stepId) definition.steps).forM (addJobStep result.jobUuid)
  -- The start step can only be set once it exists.
  if definition.steps ≠ [] then
    executeIn .sp_update_job [(js "job_id", .string result.jobUuid),
      (js "start_step_id", .number definition.startStepId)]
  reconcileJobSchedules result.jobUuid definition.schedules
  if result.created then
    executeIn .sp_add_jobserver [(js "job_id", .string result.jobUuid),
      (js "server_name", .string (js "(LOCAL)"))]

/-- Create or replace a job so that msdb matches the definition. -/
def upsertJob (jobUuid : JsString) (definition : JobDefinition) : Sql UpsertJobResult := do
  send .begin
  CallProgram.tryCatch (do
      let result ← prepareJob jobUuid definition
      fillJob result definition
      send .commit
      return result)
    fun failure => do
      -- Whether the rollback succeeds is not looked at.
      let _ ← settle .rollback
      wrapSqlError failure

/-! ## Standalone schedules and operators -/

def upsertSchedule (schedule : ScheduleDefinition) : Sql Unit :=
  CallProgram.tryCatch (do
      let existing : List Int ← send (.onPool (.schedulePresent schedule.name))
      let procedure : Procedure := if !existing.isEmpty then .sp_update_schedule else .sp_add_schedule
      send (.onPool (.execute procedure (scheduleInputs schedule))))
    wrapSqlError

def deleteSchedule (name : JsString) : Sql Unit :=
  executeOnPool .sp_delete_schedule [(js "schedule_name", .string name), (js "force_delete", .number 0)]

def upsertOperator (operator : OperatorDefinition) : Sql Unit :=
  CallProgram.tryCatch (do
      let existing : List Int ← send (.onPool (.operatorPresent operator.name))
      let procedure : Procedure := if !existing.isEmpty then .sp_update_operator else .sp_add_operator
      send (.onPool (.execute procedure [
        (js "name", .string operator.name),
        (js "enabled", bit operator.enabled),
        (js "email_address", nullable (nullIfEmpty operator.emailAddress)),
        (js "pager_address", nullable (nullIfEmpty operator.pagerAddress)),
        (js "netsend_address", nullable (nullIfEmpty operator.netsendAddress)),
        (js "weekday_pager_start_time", .number operator.weekdayPagerStartTime),
        (js "weekday_pager_end_time", .number operator.weekdayPagerEndTime),
        (js "saturday_pager_start_time", .number operator.saturdayPagerStartTime),
        (js "saturday_pager_end_time", .number operator.saturdayPagerEndTime),
        (js "sunday_pager_start_time", .number operator.sundayPagerStartTime),
        (js "sunday_pager_end_time", .number operator.sundayPagerEndTime),
        (js "pager_days", .number operator.pagerDays)])))
    wrapSqlError

/-- Put a job under central management, or take it out again. -/
def setJobWriteAllowed (jobName : JsString) (allowed : Bool) : Sql Unit :=
  executeOnPool .rsagent_set_job_write_allowed [(js "job_name", .string jobName), (js "allowed", bit allowed)]

end RemoteSqlAgent
