import RemoteSqlAgent.CommandHandler

/-! Versions of job definitions, and where a change came from. A change is only
recorded, never reconciled: it becomes a new version, and only its origin and
the drift flag of the job tell a change of the dashboard from one on the box. -/
namespace RemoteSqlAgent
open Js

inductive JobVersionOrigin where
  | initial
  | local
  | remote
  deriving DecidableEq

/-- A job on an instance, in the two unique indexes. -/
structure JobKey where
  instanceId : JsString
  jobUuid : JsString
  deriving DecidableEq

/-- A row of `jobs`, without the columns that history fills. -/
structure JobsRow where
  name : JsString
  enabled : Bool
  categoryName : Option JsString
  ownerLoginName : Option JsString
  description : Option JsString
  currentVersionNo : Nat
  currentDefinitionHash : Option JsString
  isDrifted : Bool
  driftDetectedAt : Option Int
  deletedAt : Option Int
  updatedAt : Int
  deriving DecidableEq

/-- A row of `job_versions`. -/
structure JobVersion where
  versionNo : Nat
  definition : JobDefinition
  definitionHash : JsString
  origin : JobVersionOrigin
  commandId : Option JsString
  createdBy : Option JsString
  detectedAt : Int

/-- The two tables, by their keys. Versions are in the order of insertion. -/
structure JobTables where
  jobs : JobKey → Option JobsRow
  jobVersions : JobKey → List JobVersion

structure RecordVersionInput where
  instanceId : JsString
  jobUuid : JsString
  canonicalJson : JsString
  definitionHash : JsString
  origin : JobVersionOrigin
  commandId : Option JsString
  createdBy : Option JsString
  detectedAt : Option Int

def RecordVersionInput.key (input : RecordVersionInput) : JobKey where
  instanceId := input.instanceId
  jobUuid := input.jobUuid

structure RecordVersionResult where
  changed : Bool
  versionNo : Nat
  isDrift : Bool
  deriving DecidableEq

namespace JobTables

def empty : JobTables where
  jobs _ := none
  jobVersions _ := []

/-- Write the row of a job. -/
def setJob (tables : JobTables) (key : JobKey) (row : JobsRow) : JobTables :=
  { tables with jobs := Function.update tables.jobs key (some row) }

/-- Change the row of a job, if there is one. -/
def updateJob (tables : JobTables) (key : JobKey) (change : JobsRow → JobsRow) : JobTables :=
  { tables with jobs := Function.update tables.jobs key ((tables.jobs key).map change) }

/-- The version of a definition that has moved. The first one ever seen is no
drift: the job was there before the control plane. -/
def nextVersion (existing : Option JobsRow) (input : RecordVersionInput) (definition : JobDefinition)
    (detectedAt : Int) : JobVersion where
  versionNo := (existing.map (·.currentVersionNo)).getD 0 + 1
  definition := definition
  definitionHash := input.definitionHash
  origin := if existing.isSome then input.origin else .initial
  commandId := input.commandId
  createdBy := input.createdBy
  detectedAt := detectedAt

/-- The columns of a job whose newest version this is. -/
def jobColumns (existing : Option JobsRow) (version : JobVersion) : JobsRow :=
  let isDrift := version.origin = .local
  { name := version.definition.name
    enabled := version.definition.enabled
    categoryName := version.definition.categoryName
    ownerLoginName := version.definition.ownerLoginName
    description := version.definition.description
    currentVersionNo := version.versionNo
    currentDefinitionHash := some version.definitionHash
    isDrifted := isDrift
    driftDetectedAt := if isDrift then some version.detectedAt else existing.bind (·.driftDetectedAt)
    deletedAt := none
    updatedAt := version.detectedAt }

/-- A definition that was seen before. The job has reappeared if it was deleted. -/
def reappear (tables : JobTables) (key : JobKey) (existing : JobsRow) (detectedAt : Int) : JobTables :=
  if existing.deletedAt.isSome then
    tables.setJob key { existing with deletedAt := none, updatedAt := detectedAt }
  else tables

/-- A definition that has moved. -/
def addVersion (tables : JobTables) (key : JobKey) (version : JobVersion) : JobTables where
  jobs := Function.update tables.jobs key (some (jobColumns (tables.jobs key) version))
  jobVersions := Function.update tables.jobVersions key (tables.jobVersions key ++ [version])

/-- The transaction of `recordJobVersion`. -/
def observe (tables : JobTables) (input : RecordVersionInput) (definition : JobDefinition) (detectedAt : Int) :
    JobTables × RecordVersionResult :=
  let version := nextVersion (tables.jobs input.key) input definition detectedAt
  let moved := (tables.addVersion input.key version,
    { changed := true, versionNo := version.versionNo, isDrift := version.origin = .local })
  match tables.jobs input.key with
  | none => moved
  | some existing =>
    if existing.currentDefinitionHash = some input.definitionHash then
      (tables.reappear input.key existing detectedAt,
        { changed := false, versionNo := existing.currentVersionNo, isDrift := existing.isDrifted })
    else moved

/-- Record an observed definition, creating a new version if the hash has moved. -/
def recordJobVersion (runtime : Runtime) (tables : JobTables) (input : RecordVersionInput) (now : Int) :
    Except JsString (JobTables × RecordVersionResult) :=
  match parseJobDefinition runtime input.canonicalJson with
  | .error message => .error message
  | .ok definition => .ok (tables.observe input definition (input.detectedAt.getD now))

/-- A job is soft-deleted: its history and its versions survive. -/
def softDelete (now : Int) (row : JobsRow) : JobsRow :=
  { row with deletedAt := some now, updatedAt := now }

def markJobDeleted (tables : JobTables) (instanceId jobUuid : JsString) (now : Int) : JobTables :=
  tables.updateJob ⟨instanceId, jobUuid⟩ (softDelete now)

/-- Reconcile a complete snapshot. An empty one deletes every job. -/
def markJobsMissingFromSnapshot (tables : JobTables) (instanceId : JsString) (seenJobUuids : List JsString)
    (now : Int) : JobTables :=
  { tables with jobs := fun key =>
      (tables.jobs key).map fun row =>
        if key.instanceId = instanceId ∧ row.deletedAt = none ∧ key.jobUuid ∉ seenJobUuids then softDelete now row
        else row }

/-- Clear the drift flag. -/
def acknowledgeDrift (tables : JobTables) (instanceId jobUuid : JsString) (now : Int) : JobTables :=
  tables.updateJob ⟨instanceId, jobUuid⟩ fun row => { row with isDrifted := false, updatedAt := now }

variable {tables : JobTables} {key : JobKey}

@[simp] theorem updateJob_jobVersions (change : JobsRow → JobsRow) :
    (tables.updateJob key change).jobVersions = tables.jobVersions := rfl

@[simp] theorem setJob_jobVersions (row : JobsRow) : (tables.setJob key row).jobVersions = tables.jobVersions := rfl

@[simp] theorem markJobsMissingFromSnapshot_jobVersions (instanceId : JsString) (seen : List JsString) (now : Int) :
    (tables.markJobsMissingFromSnapshot instanceId seen now).jobVersions = tables.jobVersions := rfl

/-- What an observation can do: nothing but clear the deletion of a job whose
definition it repeats, or add a version. -/
theorem observe_cases (tables : JobTables) (input : RecordVersionInput) (definition : JobDefinition)
    (detectedAt : Int) :
    (∃ existing, tables.jobs input.key = some existing ∧
      existing.currentDefinitionHash = some input.definitionHash ∧
      tables.observe input definition detectedAt = (tables.reappear input.key existing detectedAt,
        { changed := false, versionNo := existing.currentVersionNo, isDrift := existing.isDrifted })) ∨
    ((∀ existing, tables.jobs input.key = some existing →
        existing.currentDefinitionHash ≠ some input.definitionHash) ∧
      ∃ version, version = nextVersion (tables.jobs input.key) input definition detectedAt ∧
        tables.observe input definition detectedAt = (tables.addVersion input.key version,
          { changed := true, versionNo := version.versionNo, isDrift := version.origin = .local })) := by
  unfold observe
  cases found : tables.jobs input.key with
  | none =>
    refine .inr ⟨?_, _, rfl, rfl⟩
    intro existing same
    cases same
  | some existing =>
    by_cases same : existing.currentDefinitionHash = some input.definitionHash
    · refine .inl ⟨existing, rfl, same, ?_⟩
      simp only [same, ↓reduceIte]
    · refine .inr ⟨fun other equal => ?_, _, rfl, ?_⟩
      · cases equal
        exact same
      · simp only [same, ↓reduceIte]

/-- A repeated definition adds no version. -/
@[simp] theorem reappear_jobVersions (existing : JobsRow) (detectedAt : Int) :
    (tables.reappear key existing detectedAt).jobVersions = tables.jobVersions := by
  unfold reappear
  split <;> rfl

/-- A definition that parses is recorded in the transaction. -/
theorem recordJobVersion_of_parsed {runtime : Runtime} {input : RecordVersionInput} {definition : JobDefinition}
    (parsed : parseJobDefinition runtime input.canonicalJson = .ok definition) (now : Int) :
    tables.recordJobVersion runtime input now =
      .ok (tables.observe input definition (input.detectedAt.getD now)) := by
  simp only [recordJobVersion, parsed]

/-- A definition that does not parse changes nothing. -/
theorem recordJobVersion_of_error {runtime : Runtime} {input : RecordVersionInput} {message : JsString}
    (refused : parseJobDefinition runtime input.canonicalJson = .error message) (now : Int) :
    tables.recordJobVersion runtime input now = .error message := by
  simp only [recordJobVersion, refused]

/-- No job that is there is gone after a recording. -/
theorem recordJobVersion_present {runtime : Runtime} {input : RecordVersionInput} {now : Int} {after : JobTables}
    {result : RecordVersionResult} (recorded : tables.recordJobVersion runtime input now = .ok (after, result))
    {row : JobsRow} (found : tables.jobs key = some row) (present : row.deletedAt = none) :
    (after.jobs key).map (·.deletedAt) = some none := by
  cases parsed : parseJobDefinition runtime input.canonicalJson with
  | error message =>
    rw [recordJobVersion_of_error parsed] at recorded
    cases recorded
  | ok definition =>
    rw [recordJobVersion_of_parsed parsed, Except.ok.injEq] at recorded
    rcases observe_cases tables input definition (input.detectedAt.getD now) with
      ⟨existing, -, -, repeated⟩ | ⟨-, version, -, added⟩
    · rw [repeated] at recorded
      cases recorded
      unfold reappear
      split
      · by_cases same : key = input.key
        · simp [setJob, same]
        · simp [setJob, same, found, present]
      · rw [found, Option.map_some, present]
    · rw [added] at recorded
      cases recorded
      by_cases same : key = input.key
      · simp [addVersion, same, jobColumns]
      · simp [addVersion, same, found, present]

/-- A snapshot deletes no job that is in it. -/
theorem markJobsMissingFromSnapshot_of_mem (tables : JobTables) (key : JobKey) (instanceId : JsString)
    {seen : List JsString} (now : Int) (member : key.jobUuid ∈ seen) :
    (tables.markJobsMissingFromSnapshot instanceId seen now).jobs key = tables.jobs key := by
  simp [markJobsMissingFromSnapshot, member]

end JobTables

/-! ## A sample job, switched on and off -/

def observedJob (enabled : Bool) : JobDefinition := { sampleJob 1 [sampleStep 1 1 0 2 0] with enabled := enabled }

def observedText (enabled : Bool) : JsString :=
  match canonicalJsonStringify (observedJob enabled).toValue with
  | .ok text => text
  | .error _ => []

/-- A platform that parses the two texts of the job. -/
def observingRuntime : Runtime where
  crypto := sampleCrypto
  parseJson text :=
    match [true, false].find? fun enabled => observedText enabled = text with
    | some enabled => .ok (observedJob enabled).toValue
    | none => .error (js "Unexpected end of JSON input")
  jobSchemaMessage _ := js "Invalid input"

theorem parse_observedText (enabled : Bool) :
    parseJobDefinition observingRuntime (observedText enabled) = .ok (observedJob enabled) := by
  have parsed : (parseJobDefinition observingRuntime (observedText enabled)).toOption = some (observedJob enabled) := by
    cases enabled <;> decide +kernel
  cases result : parseJobDefinition observingRuntime (observedText enabled) with
  | error message =>
    rw [result] at parsed
    cases parsed
  | ok definition =>
    rw [result] at parsed
    exact congrArg Except.ok (Option.some.inj parsed)

/-- The job, observed so by a poll. -/
def observedInput (enabled : Bool) : RecordVersionInput where
  instanceId := js "i1"
  jobUuid := js "j1"
  canonicalJson := observedText enabled
  definitionHash := if enabled then js "h1" else js "h2"
  origin := .local
  commandId := none
  createdBy := none
  detectedAt := none

theorem observedInput_recorded (enabled : Bool) (tables : JobTables) (now : Int) :
    ∃ after result, tables.recordJobVersion observingRuntime (observedInput enabled) now = .ok (after, result) := by
  have parsed : parseJobDefinition observingRuntime (observedInput enabled).canonicalJson = .ok (observedJob enabled) :=
    parse_observedText enabled
  rw [JobTables.recordJobVersion_of_parsed parsed]
  exact ⟨_, _, congrArg Except.ok Prod.mk.eta.symm⟩

end RemoteSqlAgent
