import RemoteSqlAgent.JsSame

/-! Commands from the control plane: the message a worker decodes, and the plain
object the signing functions read it as. -/
namespace RemoteSqlAgent
open Js

/-- A decoded protobuf timestamp. Seconds are a safe integer, nanoseconds a
32-bit one, so both print as decimal numerals. -/
structure Timestamp where
  seconds : Int
  nanos : Int
  deriving DecidableEq

structure ToggleJob where
  jobUuid : JsString
  enabled : Bool
  baseDefinitionHash : JsString
  deriving DecidableEq

structure RunJob where
  jobUuid : JsString
  /-- Empty to start at the first step. -/
  stepName : JsString
  deriving DecidableEq

structure StopJob where
  jobUuid : JsString
  deriving DecidableEq

structure UpsertJob where
  jobUuid : JsString
  canonicalJson : JsString
  /-- Hash of the definition the edit was made against. Empty to create. -/
  baseDefinitionHash : JsString
  allowOverwrite : Bool
  deriving DecidableEq

structure DeleteJob where
  jobUuid : JsString
  baseDefinitionHash : JsString
  deriving DecidableEq

structure UpsertSchedule where
  scheduleName : JsString
  canonicalJson : JsString
  baseDefinitionHash : JsString
  deriving DecidableEq

structure DeleteSchedule where
  scheduleName : JsString
  baseDefinitionHash : JsString
  deriving DecidableEq

structure UpsertOperator where
  operatorId : Int
  canonicalJson : JsString
  baseDefinitionHash : JsString
  deriving DecidableEq

structure DeleteOperator where
  operatorId : Int
  baseDefinitionHash : JsString
  deriving DecidableEq

structure SetJobWriteAllowed where
  jobUuid : JsString
  jobName : JsString
  allowed : Bool
  deriving DecidableEq

/-- The payload oneof. The constructor is its `$case`. -/
inductive CommandPayload where
  | toggleJob (toggleJob : ToggleJob)
  | runJob (runJob : RunJob)
  | stopJob (stopJob : StopJob)
  | upsertJob (upsertJob : UpsertJob)
  | deleteJob (deleteJob : DeleteJob)
  | upsertSchedule (upsertSchedule : UpsertSchedule)
  | deleteSchedule (deleteSchedule : DeleteSchedule)
  | upsertOperator (upsertOperator : UpsertOperator)
  | deleteOperator (deleteOperator : DeleteOperator)
  | setJobWriteAllowed (setJobWriteAllowed : SetJobWriteAllowed)
  deriving DecidableEq

structure Command where
  /-- The idempotency key. -/
  id : JsString
  issuedAt : Option Timestamp
  instanceName : JsString
  signature : List UInt8
  payload : Option CommandPayload
  deriving DecidableEq

/-! ## Commands as objects -/

/-- A payload as `unknown`: the discriminant and the value under it, which may
have been built in any key order. -/
structure PayloadObject where
  caseName : JsString
  inner : JsValue
  plain : Plain inner

structure CommandObject where
  id : JsString
  issuedAt : Option Timestamp
  instanceName : JsString
  signature : List UInt8
  payload : Option PayloadObject

/-- The discriminant the decoder sets. -/
def CommandPayload.caseName : CommandPayload → JsString
  | .toggleJob _ => js "toggleJob"
  | .runJob _ => js "runJob"
  | .stopJob _ => js "stopJob"
  | .upsertJob _ => js "upsertJob"
  | .deleteJob _ => js "deleteJob"
  | .upsertSchedule _ => js "upsertSchedule"
  | .deleteSchedule _ => js "deleteSchedule"
  | .upsertOperator _ => js "upsertOperator"
  | .deleteOperator _ => js "deleteOperator"
  | .setJobWriteAllowed _ => js "setJobWriteAllowed"

def CommandPayload.innerFields : CommandPayload → List (JsString × JsValue)
  | .toggleJob p => [(js "jobUuid", .string p.jobUuid), (js "enabled", .bool p.enabled),
    (js "baseDefinitionHash", .string p.baseDefinitionHash)]
  | .runJob p => [(js "jobUuid", .string p.jobUuid), (js "stepName", .string p.stepName)]
  | .stopJob p => [(js "jobUuid", .string p.jobUuid)]
  | .upsertJob p => [(js "jobUuid", .string p.jobUuid), (js "canonicalJson", .string p.canonicalJson),
    (js "baseDefinitionHash", .string p.baseDefinitionHash), (js "allowOverwrite", .bool p.allowOverwrite)]
  | .deleteJob p => [(js "jobUuid", .string p.jobUuid),
    (js "baseDefinitionHash", .string p.baseDefinitionHash)]
  | .upsertSchedule p => [(js "scheduleName", .string p.scheduleName),
    (js "canonicalJson", .string p.canonicalJson),
    (js "baseDefinitionHash", .string p.baseDefinitionHash)]
  | .deleteSchedule p => [(js "scheduleName", .string p.scheduleName),
    (js "baseDefinitionHash", .string p.baseDefinitionHash)]
  | .upsertOperator p => [(js "operatorId", .number p.operatorId),
    (js "canonicalJson", .string p.canonicalJson),
    (js "baseDefinitionHash", .string p.baseDefinitionHash)]
  | .deleteOperator p => [(js "operatorId", .number p.operatorId),
    (js "baseDefinitionHash", .string p.baseDefinitionHash)]
  | .setJobWriteAllowed p => [(js "jobUuid", .string p.jobUuid), (js "jobName", .string p.jobName),
    (js "allowed", .bool p.allowed)]

private theorem innerFields_plain (payload : CommandPayload) : Plain (.object payload.innerFields) := by
  refine .object ?_ ?_ ?_
  · cases payload <;> simp only [CommandPayload.innerFields, List.map_cons, List.map_nil] <;> decide
  · cases payload <;> simp only [CommandPayload.innerFields, List.map_cons, List.map_nil] <;> decide
  · cases payload <;> simp only [CommandPayload.innerFields, List.forall_mem_cons, List.not_mem_nil,
      false_imp_iff, implies_true, Plain.string, Plain.bool, Plain.number, and_self]

def CommandPayload.toObject (payload : CommandPayload) : PayloadObject where
  caseName := payload.caseName
  inner := .object payload.innerFields
  plain := innerFields_plain payload

def Command.toObject (command : Command) : CommandObject where
  id := command.id
  issuedAt := command.issuedAt
  instanceName := command.instanceName
  signature := command.signature
  payload := command.payload.map CommandPayload.toObject

end RemoteSqlAgent
