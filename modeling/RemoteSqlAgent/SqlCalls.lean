import RemoteSqlAgent.CallProgram
import RemoteSqlAgent.JobDefinition

/-! The calls a worker makes to SQL Server. A call can fail in any way, and
whether msdb kept what it wrote is not told by how the call came back. -/
namespace RemoteSqlAgent
open Js

/-- What the driver rejects a call with. Errors that msdb raised have a number,
errors of the connection may have none. -/
structure SqlError where
  message : JsString
  number : Option Int
  deriving DecidableEq

/-- What the worker can throw while it applies a command. -/
inductive Failure where
  /-- `SqlApplyError`. -/
  | sqlApply (message : JsString) (sqlErrorNumber : Int)
  /-- What the driver rejected with, as it came. -/
  | driver (error : SqlError)
  /-- Any other `Error`. -/
  | other (message : JsString)
  deriving DecidableEq

/-! ## Rows -/

structure JobRow where
  job_id : JsString
  name : JsString
  description : Option JsString
  enabled : Int
  start_step_id : Int
  date_modified : Int
  notify_level_email : Int
  notify_level_netsend : Int
  notify_level_page : Int
  notify_level_eventlog : Int
  delete_level : Int
  category_name : Option JsString
  owner_login_name : Option JsString
  email_operator_name : Option JsString
  netsend_operator_name : Option JsString
  page_operator_name : Option JsString

structure StepRow where
  job_id : JsString
  step_id : Int
  step_name : JsString
  subsystem : JsString
  command : Option JsString
  database_name : Option JsString
  database_user_name : Option JsString
  on_success_action : Int
  on_success_step_id : Int
  on_fail_action : Int
  on_fail_step_id : Int
  retry_attempts : Int
  retry_interval : Int
  output_file_name : Option JsString
  flags : Int
  proxy_name : Option JsString

structure ScheduleRow where
  job_id : JsString
  name : JsString
  enabled : Int
  freq_type : Int
  freq_interval : Int
  freq_subday_type : Int
  freq_subday_interval : Int
  freq_relative_interval : Int
  freq_recurrence_factor : Int
  active_start_date : Int
  active_end_date : Int
  active_start_time : Int
  active_end_time : Int

structure JobServerRow where
  job_id : JsString
  server_name : Option JsString

/-! ## Statements -/

/-- The procedures the worker executes, all in `msdb.dbo`. -/
inductive Procedure where
  | sp_update_job
  | sp_start_job
  | sp_stop_job
  | sp_delete_job
  | sp_delete_jobstep
  | sp_add_jobstep
  | sp_add_jobserver
  | sp_update_schedule
  | sp_add_schedule
  | sp_add_jobschedule
  | sp_detach_schedule
  | sp_delete_schedule
  | sp_update_operator
  | sp_add_operator
  | rsagent_set_job_write_allowed
  deriving DecidableEq

/-- The bound parameters of a request. -/
abbrev Inputs := List (JsString × JsValue)

inductive Statement where
  | jobs
  | steps
  | schedules
  | jobServers
  | jobPresent (jobId : JsString)
  | attachedSchedules (jobId : JsString)
  | schedulePresent (name : JsString)
  | operatorPresent (name : JsString)
  /-- `sp_add_job`, the one procedure whose output the worker reads. -/
  | addJob (inputs : Inputs)
  | execute (procedure : Procedure) (inputs : Inputs)

/-- What a statement answers with when it succeeds. -/
def Statement.Rows : Statement → Type
  | jobs => List JobRow
  | steps => List StepRow
  | schedules => List ScheduleRow
  | jobServers => List JobServerRow
  | jobPresent _ => List Int
  | attachedSchedules _ => List JsString
  | schedulePresent _ => List Int
  | operatorPresent _ => List Int
  | addJob _ => Option JsString
  | execute _ _ => Unit

inductive SqlCall where
  /-- A statement on the pool. What it writes is committed with it. -/
  | onPool (statement : Statement)
  /-- A statement in the open transaction. -/
  | inTransaction (statement : Statement)
  | begin
  | commit
  | rollback

def SqlCall.Rows : SqlCall → Type
  | onPool statement => statement.Rows
  | inTransaction statement => statement.Rows
  | begin => Unit
  | commit => Unit
  | rollback => Unit

/-- Whether the call can make a change to msdb permanent. -/
def SqlCall.writes : SqlCall → Bool
  | onPool (.execute _ _) => true
  | onPool (.addJob _) => true
  | commit => true
  | _ => false

/-- The answer to a call: how it came back, and whether msdb has committed. -/
structure Reply (Rows : Type) where
  result : Except SqlError Rows
  committed : Bool

abbrev SqlAnswer (call : SqlCall) : Type := Reply call.Rows

abbrev Sql (α : Type) : Type := CallProgram SqlCall SqlAnswer Failure α

/-- The calls of a run with their answers. -/
abbrev Transcript : Type := List (CallProgram.Exchange SqlAnswer)

/-- A write to msdb that was committed. -/
def Committed (exchange : CallProgram.Exchange SqlAnswer) : Prop :=
  exchange.1.writes = true ∧ exchange.2.committed = true

/-- A call that is waited for, and throws what the driver rejects with. -/
def send (call : SqlCall) : Sql call.Rows :=
  .call call fun reply =>
    match reply.result with
    | .ok rows => .done rows
    | .error error => .throw (.driver error)

/-- A call whose rejection is handled as a value. -/
def settle (call : SqlCall) : Sql (Except SqlError call.Rows) := .call call fun reply => .done reply.result

/-- The error that is thrown for another: one with a number is an error of
applying the command, any other stays what it is. -/
def wrapped : Failure → Failure
  | .driver error =>
    match error.number with
    | some number => .sqlApply error.message number
    | none => .driver error
  | failure => failure

def wrapSqlError {α : Type} (failure : Failure) : Sql α := .throw (wrapped failure)

open CallProgram

theorem runs_send {call : SqlCall} {transcript : Transcript} {ended : Except Failure call.Rows} :
    Runs (send call) transcript ended ↔
      ∃ reply : SqlAnswer call, transcript = [⟨call, reply⟩] ∧ ended = reply.result.mapError .driver := by
  simp only [send, runs_call]
  constructor
  · rintro ⟨reply, later, rfl, run⟩
    refine ⟨reply, ?_⟩
    cases back : reply.result <;> simp only [back, runs_throw, runs_done] at run <;>
      exact ⟨by rw [run.1], run.2⟩
  · rintro ⟨reply, rfl, rfl⟩
    refine ⟨reply, [], rfl, ?_⟩
    cases reply.result <;> simp [Except.mapError]

/-- What follows a call goes on with its reply, whether or not it succeeded. -/
theorem runs_settle_bind {call : SqlCall} {α : Type} {after : Except SqlError call.Rows → Sql α}
    {transcript : Transcript} {ended : Except Failure α} :
    Runs (settle call >>= after) transcript ended ↔
      ∃ (reply : SqlAnswer call) (later : Transcript), transcript = ⟨call, reply⟩ :: later ∧
        Runs (after reply.result) later ended := runs_call

theorem send_within {allowed : SqlCall → Prop} {call : SqlCall} (permitted : allowed call) :
    Within allowed (send call) := by
  refine .call permitted fun reply => ?_
  cases reply.result with
  | ok rows => exact .done rows
  | error error => exact .throw _

theorem settle_within {allowed : SqlCall → Prop} {call : SqlCall} (permitted : allowed call) :
    Within allowed (settle call) := .call permitted fun reply => .done reply.result

end RemoteSqlAgent
