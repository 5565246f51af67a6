import RemoteSqlAgent.JsJson

/-! `JobDefinition.v1`, the representation of a SQL Server Agent job that the
worker and the control plane share, with the schema that admits one and the
plain value it is serialised from. -/
namespace RemoteSqlAgent
open Js

/-! ## Steps, schedules and jobs -/

/-- `sp_add_jobstep @subsystem` values. -/
inductive StepSubsystem where
  | TSQL | CmdExec | PowerShell | ANALYSISCOMMAND | ANALYSISQUERY | SSIS
  | Distribution | LogReader | Merge | Snapshot | QueueReader
  deriving DecidableEq

namespace StepSubsystem

def all : List StepSubsystem :=
  [TSQL, CmdExec, PowerShell, ANALYSISCOMMAND, ANALYSISQUERY, SSIS, Distribution, LogReader, Merge,
    Snapshot, QueueReader]

def text : StepSubsystem → JsString
  | TSQL => js "TSQL"
  | CmdExec => js "CmdExec"
  | PowerShell => js "PowerShell"
  | ANALYSISCOMMAND => js "ANALYSISCOMMAND"
  | ANALYSISQUERY => js "ANALYSISQUERY"
  | SSIS => js "SSIS"
  | Distribution => js "Distribution"
  | LogReader => js "LogReader"
  | Merge => js "Merge"
  | Snapshot => js "Snapshot"
  | QueueReader => js "QueueReader"

end StepSubsystem

namespace StepAction

/-! `on_success_action` / `on_fail_action`. The schema admits any number, and
one that is not listed ends the job. -/

abbrev QuitWithSuccess : Int := 1
abbrev QuitWithFailure : Int := 2
abbrev GoToNextStep : Int := 3
abbrev GoToStep : Int := 4

end StepAction

structure JobStep where
  stepId : Int
  name : JsString
  subsystem : StepSubsystem
  command : JsString
  databaseName : Option JsString
  databaseUserName : Option JsString
  onSuccessAction : Int
  onSuccessStepId : Int
  onFailAction : Int
  onFailStepId : Int
  retryAttempts : Int
  retryIntervalMinutes : Int
  outputFileName : Option JsString
  flags : Int
  proxyName : Option JsString
  deriving DecidableEq

structure ScheduleDefinition where
  name : JsString
  enabled : Bool
  freqType : Int
  freqInterval : Int
  freqSubdayType : Int
  freqSubdayInterval : Int
  freqRelativeInterval : Int
  freqRecurrenceFactor : Int
  activeStartDate : Int
  activeEndDate : Int
  activeStartTime : Int
  activeEndTime : Int
  deriving DecidableEq

structure JobNotifications where
  emailOperatorName : Option JsString
  emailLevel : Int
  netsendOperatorName : Option JsString
  netsendLevel : Int
  pageOperatorName : Option JsString
  pageLevel : Int
  eventlogLevel : Int
  deleteLevel : Int
  deriving DecidableEq

/-- A job. Its `schemaVersion` has only one admissible value and is not stored. -/
structure JobDefinition where
  name : JsString
  description : Option JsString
  enabled : Bool
  categoryName : Option JsString
  ownerLoginName : Option JsString
  startStepId : Int
  notifications : JobNotifications
  steps : List JobStep
  schedules : List ScheduleDefinition
  targetServers : List JsString
  deriving DecidableEq

def SCHEMA_VERSION : JsString := js "JobDefinition.v1"

/-- The ids of a job's steps, in array order. -/
def JobDefinition.stepIds (definition : JobDefinition) : List Int :=
  definition.steps.map (·.stepId)

/-! ## The schema -/

/-- A property the schema reads; one that is missing reads as `undefined`. -/
def readProperty (fields : List (JsString × JsValue)) (name : String) : JsValue :=
  (property (js name) fields).getD .undefined

/-- `z.string()`. -/
def zString : JsValue → Option JsString
  | .string s => some s
  | _ => none

/-- `z.string().min(min).max(max)`, in UTF-16 code units. -/
def zStringBetween (min max : Nat) (value : JsValue) : Option JsString :=
  (zString value).filter fun s => min ≤ s.length && s.length ≤ max

/-- `z.boolean()`. -/
def zBoolean : JsValue → Option Bool
  | .bool b => some b
  | _ => none

/-- `z.number().int()`: the integers a double represents exactly. -/
def zInt : JsValue → Option Int
  | .number n => if n.natAbs < 2 ^ 53 then some n else none
  | _ => none

/-- `z.number().int().min(min)`. -/
def zIntMin (min : Int) (value : JsValue) : Option Int := (zInt value).filter (min ≤ ·)

/-- `z.number().int().min(min).max(max)`. -/
def zIntBetween (min max : Int) (value : JsValue) : Option Int :=
  (zInt value).filter fun n => min ≤ n && n ≤ max

/-- `schema.nullable()`. -/
def zNullable {α : Type} (schema : JsValue → Option α) : JsValue → Option (Option α)
  | .null => some none
  | value => (schema value).map some

/-- `z.array(schema)`. -/
def zArray {α : Type} (schema : JsValue → Option α) : JsValue → Option (List α)
  | .array elements => elements.mapM schema
  | _ => none

/-- `z.object(shape)`: properties the shape does not name are ignored. -/
def zObject {α : Type} (shape : (String → JsValue) → Option α) : JsValue → Option α
  | .object fields => shape (readProperty fields)
  | _ => none

def stepSubsystemSchema (value : JsValue) : Option StepSubsystem :=
  (zString value).bind fun s => StepSubsystem.all.find? fun subsystem => subsystem.text = s

def jobStepSchema : JsValue → Option JobStep := zObject fun read => do
  return {
    stepId := ← zIntMin 1 (read "stepId")
    name := ← zStringBetween 1 128 (read "name")
    subsystem := ← stepSubsystemSchema (read "subsystem")
    command := ← zString (read "command")
    databaseName := ← zNullable zString (read "databaseName")
    databaseUserName := ← zNullable zString (read "databaseUserName")
    onSuccessAction := ← zInt (read "onSuccessAction")
    onSuccessStepId := ← zInt (read "onSuccessStepId")
    onFailAction := ← zInt (read "onFailAction")
    onFailStepId := ← zInt (read "onFailStepId")
    retryAttempts := ← zIntMin 0 (read "retryAttempts")
    retryIntervalMinutes := ← zIntMin 0 (read "retryIntervalMinutes")
    outputFileName := ← zNullable zString (read "outputFileName")
    flags := ← zIntMin 0 (read "flags")
    proxyName := ← zNullable zString (read "proxyName") }

def scheduleDefinitionSchema : JsValue → Option ScheduleDefinition := zObject fun read => do
  return {
    name := ← zStringBetween 1 128 (read "name")
    enabled := ← zBoolean (read "enabled")
    freqType := ← zInt (read "freqType")
    freqInterval := ← zInt (read "freqInterval")
    freqSubdayType := ← zInt (read "freqSubdayType")
    freqSubdayInterval := ← zInt (read "freqSubdayInterval")
    freqRelativeInterval := ← zInt (read "freqRelativeInterval")
    freqRecurrenceFactor := ← zInt (read "freqRecurrenceFactor")
    activeStartDate := ← zInt (read "activeStartDate")
    activeEndDate := ← zInt (read "activeEndDate")
    activeStartTime := ← zInt (read "activeStartTime")
    activeEndTime := ← zInt (read "activeEndTime") }

def jobNotificationsSchema : JsValue → Option JobNotifications := zObject fun read => do
  return {
    emailOperatorName := ← zNullable zString (read "emailOperatorName")
    emailLevel := ← zIntBetween 0 3 (read "emailLevel")
    netsendOperatorName := ← zNullable zString (read "netsendOperatorName")
    netsendLevel := ← zIntBetween 0 3 (read "netsendLevel")
    pageOperatorName := ← zNullable zString (read "pageOperatorName")
    pageLevel := ← zIntBetween 0 3 (read "pageLevel")
    eventlogLevel := ← zIntBetween 0 3 (read "eventlogLevel")
    deleteLevel := ← zIntBetween 0 3 (read "deleteLevel") }

def jobDefinitionSchema : JsValue → Option JobDefinition := zObject fun read => do
  let version ← zString (read "schemaVersion")
  if version ≠ SCHEMA_VERSION then none
  return {
    name := ← zStringBetween 1 128 (read "name")
    description := ← zNullable zString (read "description")
    enabled := ← zBoolean (read "enabled")
    categoryName := ← zNullable zString (read "categoryName")
    ownerLoginName := ← zNullable zString (read "ownerLoginName")
    startStepId := ← zIntMin 1 (read "startStepId")
    notifications := ← jobNotificationsSchema (read "notifications")
    steps := ← zArray jobStepSchema (read "steps")
    schedules := ← zArray scheduleDefinitionSchema (read "schedules")
    targetServers := ← zArray zString (read "targetServers") }

structure OperatorDefinition where
  name : JsString
  enabled : Bool
  emailAddress : Option JsString
  pagerAddress : Option JsString
  netsendAddress : Option JsString
  weekdayPagerStartTime : Int
  weekdayPagerEndTime : Int
  saturdayPagerStartTime : Int
  saturdayPagerEndTime : Int
  sundayPagerStartTime : Int
  sundayPagerEndTime : Int
  pagerDays : Int
  deriving DecidableEq

def operatorDefinitionSchema : JsValue → Option OperatorDefinition := zObject fun read => do
  let version ← zString (read "schemaVersion")
  if version ≠ js "OperatorDefinition.v1" then none
  return {
    name := ← zStringBetween 1 128 (read "name")
    enabled := ← zBoolean (read "enabled")
    emailAddress := ← zNullable zString (read "emailAddress")
    pagerAddress := ← zNullable zString (read "pagerAddress")
    netsendAddress := ← zNullable zString (read "netsendAddress")
    weekdayPagerStartTime := ← zInt (read "weekdayPagerStartTime")
    weekdayPagerEndTime := ← zInt (read "weekdayPagerEndTime")
    saturdayPagerStartTime := ← zInt (read "saturdayPagerStartTime")
    saturdayPagerEndTime := ← zInt (read "saturdayPagerEndTime")
    sundayPagerStartTime := ← zInt (read "sundayPagerStartTime")
    sundayPagerEndTime := ← zInt (read "sundayPagerEndTime")
    pagerDays := ← zInt (read "pagerDays") }

/-! ## Plain values -/

def nullable (value : Option JsString) : JsValue := value.elim .null .string

def JobStep.toValue (step : JobStep) : JsValue := .object [
  (js "stepId", .number step.stepId),
  (js "name", .string step.name),
  (js "subsystem", .string step.subsystem.text),
  (js "command", .string step.command),
  (js "databaseName", nullable step.databaseName),
  (js "databaseUserName", nullable step.databaseUserName),
  (js "onSuccessAction", .number step.onSuccessAction),
  (js "onSuccessStepId", .number step.onSuccessStepId),
  (js "onFailAction", .number step.onFailAction),
  (js "onFailStepId", .number step.onFailStepId),
  (js "retryAttempts", .number step.retryAttempts),
  (js "retryIntervalMinutes", .number step.retryIntervalMinutes),
  (js "outputFileName", nullable step.outputFileName),
  (js "flags", .number step.flags),
  (js "proxyName", nullable step.proxyName)]

def ScheduleDefinition.toValue (schedule : ScheduleDefinition) : JsValue := .object [
  (js "name", .string schedule.name),
  (js "enabled", .bool schedule.enabled),
  (js "freqType", .number schedule.freqType),
  (js "freqInterval", .number schedule.freqInterval),
  (js "freqSubdayType", .number schedule.freqSubdayType),
  (js "freqSubdayInterval", .number schedule.freqSubdayInterval),
  (js "freqRelativeInterval", .number schedule.freqRelativeInterval),
  (js "freqRecurrenceFactor", .number schedule.freqRecurrenceFactor),
  (js "activeStartDate", .number schedule.activeStartDate),
  (js "activeEndDate", .number schedule.activeEndDate),
  (js "activeStartTime", .number schedule.activeStartTime),
  (js "activeEndTime", .number schedule.activeEndTime)]

def JobNotifications.toValue (notifications : JobNotifications) : JsValue := .object [
  (js "emailOperatorName", nullable notifications.emailOperatorName),
  (js "emailLevel", .number notifications.emailLevel),
  (js "netsendOperatorName", nullable notifications.netsendOperatorName),
  (js "netsendLevel", .number notifications.netsendLevel),
  (js "pageOperatorName", nullable notifications.pageOperatorName),
  (js "pageLevel", .number notifications.pageLevel),
  (js "eventlogLevel", .number notifications.eventlogLevel),
  (js "deleteLevel", .number notifications.deleteLevel)]

def JobDefinition.toValue (definition : JobDefinition) : JsValue := .object [
  (js "schemaVersion", .string SCHEMA_VERSION),
  (js "name", .string definition.name),
  (js "description", nullable definition.description),
  (js "enabled", .bool definition.enabled),
  (js "categoryName", nullable definition.categoryName),
  (js "ownerLoginName", nullable definition.ownerLoginName),
  (js "startStepId", .number definition.startStepId),
  (js "notifications", definition.notifications.toValue),
  (js "steps", .array (definition.steps.map JobStep.toValue)),
  (js "schedules", .array (definition.schedules.map ScheduleDefinition.toValue)),
  (js "targetServers", .array (definition.targetServers.map .string))]

/-! ## Sample jobs -/

/-- A step that is told apart from others by its control flow alone. -/
def sampleStep (stepId onSuccessAction onSuccessStepId onFailAction onFailStepId : Int) : JobStep where
  stepId := stepId
  name := js "Run backup"
  subsystem := .TSQL
  command := js "EXEC dbo.RunBackup;"
  databaseName := some (js "master")
  databaseUserName := none
  onSuccessAction := onSuccessAction
  onSuccessStepId := onSuccessStepId
  onFailAction := onFailAction
  onFailStepId := onFailStepId
  retryAttempts := 0
  retryIntervalMinutes := 0
  outputFileName := none
  flags := 0
  proxyName := none

def sampleJob (startStepId : Int) (steps : List JobStep) : JobDefinition where
  name := js "Nightly Backup"
  description := none
  enabled := true
  categoryName := none
  ownerLoginName := some (js "sa")
  startStepId := startStepId
  notifications :=
    { emailOperatorName := none, emailLevel := 0, netsendOperatorName := none, netsendLevel := 0,
      pageOperatorName := none, pageLevel := 0, eventlogLevel := 2, deleteLevel := 0 }
  steps := steps
  schedules := []
  targetServers := []

end RemoteSqlAgent
