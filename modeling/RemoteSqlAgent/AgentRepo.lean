import RemoteSqlAgent.SqlCalls

/-! Read access to msdb: the jobs of an instance, put together from four
queries. Their errors are thrown as the driver made them. -/
namespace RemoteSqlAgent
open Js CallProgram

structure JobRecord where
  jobUuid : JsString
  definition : JobDefinition
  dateModified : Int

structure ReadJobsResult where
  jobs : List JobRecord
  /-- Subsystems seen that are not modelled. -/
  unknownSubsystems : List JsString

/-- msdb returns identifiers in upper case, the control plane keys on lower. -/
def normaliseUuid (value : JsString) : JsString := toLowerCase value

def knownSubsystem (subsystem : JsString) : Option StepSubsystem :=
  StepSubsystem.all.find? fun known => known.text = subsystem

/-- A step whose subsystem is not modelled is kept, as one of `CmdExec`. -/
def stepOfRow (row : StepRow) : JobStep where
  stepId := row.step_id
  name := row.step_name
  subsystem := (knownSubsystem row.subsystem).getD .CmdExec
  command := row.command.getD []
  databaseName := row.database_name
  databaseUserName := row.database_user_name
  onSuccessAction := row.on_success_action
  onSuccessStepId := row.on_success_step_id
  onFailAction := row.on_fail_action
  onFailStepId := row.on_fail_step_id
  retryAttempts := row.retry_attempts
  retryIntervalMinutes := row.retry_interval
  outputFileName := row.output_file_name
  flags := row.flags
  proxyName := row.proxy_name

def scheduleOfRow (row : ScheduleRow) : ScheduleDefinition where
  name := row.name
  enabled := row.enabled = 1
  freqType := row.freq_type
  freqInterval := row.freq_interval
  freqSubdayType := row.freq_subday_type
  freqSubdayInterval := row.freq_subday_interval
  freqRelativeInterval := row.freq_relative_interval
  freqRecurrenceFactor := row.freq_recurrence_factor
  activeStartDate := row.active_start_date
  activeEndDate := row.active_end_date
  activeStartTime := row.active_start_time
  activeEndTime := row.active_end_time

/-- The rows of one job, in query order. -/
def ofJob {Row : Type} (job_id : Row → JsString) (jobUuid : JsString) (rows : List Row) : List Row :=
  rows.filter fun row => normaliseUuid (job_id row) = jobUuid

def jobOfRow (steps : List StepRow) (schedules : List ScheduleRow) (servers : List JobServerRow)
    (row : JobRow) : JobRecord :=
  let jobUuid := normaliseUuid row.job_id
  { jobUuid := jobUuid
    dateModified := row.date_modified
    definition := {
      name := row.name
      description := row.description
      enabled := row.enabled = 1
      categoryName := row.category_name
      ownerLoginName := row.owner_login_name
      startStepId := row.start_step_id
      notifications := {
        emailOperatorName := row.email_operator_name
        emailLevel := row.notify_level_email
        netsendOperatorName := row.netsend_operator_name
        netsendLevel := row.notify_level_netsend
        pageOperatorName := row.page_operator_name
        pageLevel := row.notify_level_page
        eventlogLevel := row.notify_level_eventlog
        deleteLevel := row.delete_level }
      steps := (ofJob (·.job_id) jobUuid steps).map stepOfRow
      schedules := (ofJob (·.job_id) jobUuid schedules).map scheduleOfRow
      targetServers := (ofJob (·.job_id) jobUuid servers).filterMap (·.server_name) } }

/-- What `readJobs` makes of the rows. -/
def jobsOfRows (jobs : List JobRow) (steps : List StepRow) (schedules : List ScheduleRow)
    (servers : List JobServerRow) : ReadJobsResult where
  jobs := jobs.map (jobOfRow steps schedules servers)
  unknownSubsystems :=
    ((jobs.flatMap fun job => ofJob (·.job_id) (normaliseUuid job.job_id) steps).filterMap fun step =>
      if (knownSubsystem step.subsystem).isNone then some step.subsystem else none).eraseDups

/-- Send the four queries together. Where several are rejected, the error that
is thrown here is that of the first in this order; in `Promise.all` it is that of
the first to arrive. -/
def readJobs : Sql ReadJobsResult := do
  let jobs : Except SqlError (List JobRow) ← settle (.onPool .jobs)
  let steps : Except SqlError (List StepRow) ← settle (.onPool .steps)
  let schedules : Except SqlError (List ScheduleRow) ← settle (.onPool .schedules)
  let servers : Except SqlError (List JobServerRow) ← settle (.onPool .jobServers)
  match jobs, steps, schedules, servers with
  | .ok jobs, .ok steps, .ok schedules, .ok servers => return jobsOfRows jobs steps schedules servers
  | .error error, _, _, _ => .throw (.driver error)
  | _, .error error, _, _ => .throw (.driver error)
  | _, _, .error error, _ => .throw (.driver error)
  | _, _, _, .error error => .throw (.driver error)

/-- The four queries all came back with rows. -/
def Answered (transcript : Transcript) (jobs : List JobRow) (steps : List StepRow)
    (schedules : List ScheduleRow) (servers : List JobServerRow) : Prop :=
  ∃ a b c d : Bool, transcript = [⟨.onPool .jobs, ⟨.ok jobs, a⟩⟩, ⟨.onPool .steps, ⟨.ok steps, b⟩⟩,
    ⟨.onPool .schedules, ⟨.ok schedules, c⟩⟩, ⟨.onPool .jobServers, ⟨.ok servers, d⟩⟩]

theorem readJobs_within {allowed : SqlCall → Prop} (permitted : ∀ statement : Statement,
    (SqlCall.onPool statement).writes = false → allowed (.onPool statement)) : Within allowed readJobs := by
  refine (settle_within (permitted .jobs rfl)).bind fun jobs => ?_
  refine (settle_within (permitted .steps rfl)).bind fun steps => ?_
  refine (settle_within (permitted .schedules rfl)).bind fun schedules => ?_
  refine (settle_within (permitted .jobServers rfl)).bind fun servers => ?_
  cases jobs <;> cases steps <;> cases schedules <;> cases servers <;>
    first | exact .throw _ | exact .done _

/-- A read succeeds exactly if every query does. -/
theorem runs_readJobs_ok {transcript : Transcript} {result : ReadJobsResult} :
    Runs readJobs transcript (.ok result) ↔ ∃ jobs steps schedules servers,
      Answered transcript jobs steps schedules servers ∧
        result = jobsOfRows jobs steps schedules servers := by
  constructor
  · intro run
    obtain ⟨⟨jobs, a⟩, _, rfl, afterJobs⟩ := runs_settle_bind.mp run
    obtain ⟨⟨steps, b⟩, _, rfl, afterSteps⟩ := runs_settle_bind.mp afterJobs
    obtain ⟨⟨schedules, c⟩, _, rfl, afterSchedules⟩ := runs_settle_bind.mp afterSteps
    obtain ⟨⟨servers, d⟩, _, rfl, last⟩ := runs_settle_bind.mp afterSchedules
    cases jobs <;> cases steps <;> cases schedules <;> cases servers <;> try cases (runs_throw.mp last).2
    obtain ⟨rfl, same⟩ := runs_done.mp last
    exact ⟨_, _, _, _, ⟨a, b, c, d, rfl⟩, Except.ok.inj same⟩
  · rintro ⟨jobs, steps, schedules, servers, ⟨a, b, c, d, rfl⟩, rfl⟩
    exact .call _ (.call _ (.call _ (.call _ (.done _))))

/-- What a read throws is never an error of applying a command. -/
theorem readJobs_throws {transcript : Transcript} {failure : Failure}
    (run : Runs readJobs transcript (.error failure)) : ∃ error, failure = .driver error := by
  obtain ⟨⟨jobs, a⟩, _, rfl, afterJobs⟩ := runs_settle_bind.mp run
  obtain ⟨⟨steps, b⟩, _, rfl, afterSteps⟩ := runs_settle_bind.mp afterJobs
  obtain ⟨⟨schedules, c⟩, _, rfl, afterSchedules⟩ := runs_settle_bind.mp afterSteps
  obtain ⟨⟨servers, d⟩, _, rfl, last⟩ := runs_settle_bind.mp afterSchedules
  cases jobs <;> cases steps <;> cases schedules <;> cases servers <;> try cases (runs_done.mp last).2
  all_goals exact ⟨_, Except.error.inj (runs_throw.mp last).2⟩

end RemoteSqlAgent
