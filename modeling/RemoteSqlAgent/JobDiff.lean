import RemoteSqlAgent.CanonicalEquivalence

/-! The structured diff between two job definitions. It walks lists of fields,
matches steps by id and schedules by name, and does not look at target servers;
where that leaves it blind, and where it sees a change that is none, is exact. -/
namespace RemoteSqlAgent
open Js

/-! ## Changes -/

inductive ChangeKind where
  | added | removed | modified
  deriving DecidableEq

/-- What a compared field can hold. -/
inductive FieldValue where
  | null
  | bool (value : Bool)
  | number (value : Int)
  | string (value : JsString)
  deriving DecidableEq

structure FieldChange where
  path : JsString
  before : FieldValue
  after : FieldValue
  deriving DecidableEq

structure StepChange where
  change : ChangeKind
  stepId : Int
  stepName : JsString
  fields : Option (List FieldChange) := none
  commandBefore : Option JsString := none
  commandAfter : Option JsString := none
  deriving DecidableEq

structure ScheduleChange where
  change : ChangeKind
  name : JsString
  fields : Option (List FieldChange) := none
  deriving DecidableEq

inductive Change where
  | field (change : FieldChange)
  | step (change : StepChange)
  | schedule (change : ScheduleChange)
  deriving DecidableEq

/-! ## Fields -/

def textField (value : Option JsString) : FieldValue := value.elim .null .string

/-- A field's name and how it is read. -/
abbrev Field (α : Type) := String × (α → FieldValue)

def JOB_SCALAR_FIELDS : List (Field JobDefinition) := [
  ("name", fun job => .string job.name),
  ("description", fun job => textField job.description),
  ("enabled", fun job => .bool job.enabled),
  ("categoryName", fun job => textField job.categoryName),
  ("ownerLoginName", fun job => textField job.ownerLoginName),
  ("startStepId", fun job => .number job.startStepId)]

/-- `Object.keys(after.notifications)`. -/
def NOTIFICATION_FIELDS : List (Field JobNotifications) := [
  ("emailOperatorName", fun notifications => textField notifications.emailOperatorName),
  ("emailLevel", fun notifications => .number notifications.emailLevel),
  ("netsendOperatorName", fun notifications => textField notifications.netsendOperatorName),
  ("netsendLevel", fun notifications => .number notifications.netsendLevel),
  ("pageOperatorName", fun notifications => textField notifications.pageOperatorName),
  ("pageLevel", fun notifications => .number notifications.pageLevel),
  ("eventlogLevel", fun notifications => .number notifications.eventlogLevel),
  ("deleteLevel", fun notifications => .number notifications.deleteLevel)]

def STEP_FIELDS : List (Field JobStep) := [
  ("name", fun step => .string step.name),
  ("subsystem", fun step => .string step.subsystem.text),
  ("databaseName", fun step => textField step.databaseName),
  ("databaseUserName", fun step => textField step.databaseUserName),
  ("onSuccessAction", fun step => .number step.onSuccessAction),
  ("onSuccessStepId", fun step => .number step.onSuccessStepId),
  ("onFailAction", fun step => .number step.onFailAction),
  ("onFailStepId", fun step => .number step.onFailStepId),
  ("retryAttempts", fun step => .number step.retryAttempts),
  ("retryIntervalMinutes", fun step => .number step.retryIntervalMinutes),
  ("outputFileName", fun step => textField step.outputFileName),
  ("flags", fun step => .number step.flags),
  ("proxyName", fun step => textField step.proxyName)]

def SCHEDULE_FIELDS : List (Field ScheduleDefinition) := [
  ("enabled", fun schedule => .bool schedule.enabled),
  ("freqType", fun schedule => .number schedule.freqType),
  ("freqInterval", fun schedule => .number schedule.freqInterval),
  ("freqSubdayType", fun schedule => .number schedule.freqSubdayType),
  ("freqSubdayInterval", fun schedule => .number schedule.freqSubdayInterval),
  ("freqRelativeInterval", fun schedule => .number schedule.freqRelativeInterval),
  ("freqRecurrenceFactor", fun schedule => .number schedule.freqRecurrenceFactor),
  ("activeStartDate", fun schedule => .number schedule.activeStartDate),
  ("activeEndDate", fun schedule => .number schedule.activeEndDate),
  ("activeStartTime", fun schedule => .number schedule.activeStartTime),
  ("activeEndTime", fun schedule => .number schedule.activeEndTime)]

/-- The fields of a list that two records disagree on. -/
def changedFields {α : Type} (fields : List (Field α)) (path : JsString) (before after : α) :
    List FieldChange :=
  fields.filterMap fun field =>
    if field.2 before ≠ field.2 after then
      some { path := path ++ js field.1, before := field.2 before, after := field.2 after }
    else none

/-! ## The diff -/

/-- What `diffSteps` records for a step of the job after. -/
def stepChange (before : List JobStep) (step : JobStep) : Option StepChange :=
  match mapGet (·.stepId) before step.stepId with
  | none => some
    { change := .added, stepId := step.stepId, stepName := step.name, commandAfter := some step.command }
  | some prev =>
    let fields := changedFields STEP_FIELDS (js "steps[" ++ decimal step.stepId ++ js "].") prev step
    let commandChanged : Bool := prev.command ≠ step.command
    if fields ≠ [] ∨ commandChanged then some
      { change := .modified, stepId := step.stepId, stepName := step.name, fields := some fields
        commandBefore := if commandChanged then some prev.command else none
        commandAfter := if commandChanged then some step.command else none }
    else none

def diffSteps (before after : List JobStep) : List StepChange :=
  let removed := before.filter fun step => (mapGet (·.stepId) after step.stepId).isNone
  sortBy (fun a b => a.stepId - b.stepId)
    (after.filterMap (stepChange before) ++ removed.map fun step =>
      { change := .removed, stepId := step.stepId, stepName := step.name
        commandBefore := some step.command })

/-- What `diffSchedules` records for a schedule of the job after. -/
def scheduleChange (before : List ScheduleDefinition) (sched : ScheduleDefinition) :
    Option ScheduleChange :=
  match mapGet (·.name) before sched.name with
  | none => some { change := .added, name := sched.name }
  | some prev =>
    let fields := changedFields SCHEDULE_FIELDS (js "schedules[" ++ sched.name ++ js "].") prev sched
    if fields ≠ [] then some { change := .modified, name := sched.name, fields := some fields } else none

/-- Schedules are matched by name. -/
def diffSchedules (before after : List ScheduleDefinition) : List ScheduleChange :=
  let removed := before.filter fun sched => (mapGet (·.name) after sched.name).isNone
  after.filterMap (scheduleChange before) ++ removed.map fun sched =>
    { change := .removed, name := sched.name }

def diffJobDefinitions (before after : JobDefinition) : List Change :=
  (changedFields JOB_SCALAR_FIELDS [] before after).map .field ++
    (changedFields NOTIFICATION_FIELDS (js "notifications.") before.notifications
      after.notifications).map .field ++
    (diffSteps before.steps after.steps).map .step ++
    (diffSchedules before.schedules after.schedules).map .schedule

/-! ## When the diff is empty -/

theorem changedFields_eq_nil {α : Type} {fields : List (Field α)} {path : JsString} {before after : α} :
    changedFields fields path before after = [] ↔ ∀ field ∈ fields, field.2 before = field.2 after := by
  simp [changedFields]

@[simp] private theorem textField_inj {a b : Option JsString} : textField a = textField b ↔ a = b := by
  cases a <;> cases b <;> simp [textField]

/-- The fields of a step, with its id and command, are all there is to it. -/
private theorem stepFields_complete {before after : JobStep} (sameId : before.stepId = after.stepId) :
    ((∀ field ∈ STEP_FIELDS, field.2 before = field.2 after) ∧ before.command = after.command) ↔
      before = after := by
  constructor
  · rintro ⟨fields, command⟩
    simp only [STEP_FIELDS, List.forall_mem_cons, FieldValue.string.injEq, FieldValue.number.injEq,
      textField_inj, StepSubsystem.text_injective.eq_iff] at fields
    cases before
    cases after
    simp_all
  · rintro rfl
    exact ⟨fun _ _ => rfl, rfl⟩

private theorem scheduleFields_complete {before after : ScheduleDefinition}
    (sameName : before.name = after.name) :
    (∀ field ∈ SCHEDULE_FIELDS, field.2 before = field.2 after) ↔ before = after := by
  constructor
  · intro fields
    simp only [SCHEDULE_FIELDS, List.forall_mem_cons, FieldValue.bool.injEq, FieldValue.number.injEq]
      at fields
    cases before
    cases after
    simp_all
  · rintro rfl
    exact fun _ _ => rfl

private theorem notificationFields_complete {before after : JobNotifications} :
    (∀ field ∈ NOTIFICATION_FIELDS, field.2 before = field.2 after) ↔ before = after := by
  constructor
  · intro fields
    simp only [NOTIFICATION_FIELDS, List.forall_mem_cons, textField_inj, FieldValue.number.injEq] at fields
    cases before
    cases after
    simp_all
  · rintro rfl
    exact fun _ _ => rfl

/-- A step is not reported if the step of its id before was that step. -/
theorem stepChange_eq_none {before : List JobStep} {step : JobStep} :
    stepChange before step = none ↔ mapGet (·.stepId) before step.stepId = some step := by
  unfold stepChange
  cases found : mapGet (·.stepId) before step.stepId with
  | none => simp
  | some prev =>
    have sameId := (mapGet_mem found).2
    simp only [Option.some.injEq, ← stepFields_complete sameId, ite_eq_right_iff, reduceCtorEq, imp_false,
      not_or, ne_eq, not_not, changedFields_eq_nil, decide_not, Bool.not_eq_true', decide_eq_false_iff_not]

theorem scheduleChange_eq_none {before : List ScheduleDefinition} {sched : ScheduleDefinition} :
    scheduleChange before sched = none ↔ mapGet (·.name) before sched.name = some sched := by
  unfold scheduleChange
  cases found : mapGet (·.name) before sched.name with
  | none => simp
  | some prev =>
    have sameName := (mapGet_mem found).2
    simp only [Option.some.injEq, ← scheduleFields_complete sameName, ite_eq_right_iff, reduceCtorEq,
      imp_false, ne_eq, not_not, changedFields_eq_nil]

/-- What is there after is what a map of what was there before holds, and every
key of what was there before is still there. -/
def Matched {α κ : Type} [DecidableEq κ] (key : α → κ) (before after : List α) : Prop :=
  (∀ a ∈ after, mapGet key before (key a) = some a) ∧ ∀ a ∈ before, ∃ b ∈ after, key b = key a

private theorem removed_eq_nil {α κ : Type} [DecidableEq κ] {key : α → κ} {before after : List α} :
    (before.filter fun a => (mapGet key after (key a)).isNone) = [] ↔
      ∀ a ∈ before, ∃ b ∈ after, key b = key a := by
  simp only [List.filter_eq_nil_iff, Option.isNone_iff_eq_none, mapGet_eq_none, not_forall, not_not,
    exists_prop]

theorem diffSteps_eq_nil {before after : List JobStep} :
    diffSteps before after = [] ↔ Matched (·.stepId) before after := by
  have sorted : ∀ {changes : List StepChange},
      sortBy (fun a b => a.stepId - b.stepId) changes = [] ↔ changes = [] := by
    intro changes
    rw [← List.length_eq_zero_iff, length_sortBy, List.length_eq_zero_iff]
  rw [diffSteps, sorted, List.append_eq_nil_iff, List.map_eq_nil_iff, removed_eq_nil,
    List.filterMap_eq_nil_iff]
  simp only [stepChange_eq_none, Matched]

theorem diffSchedules_eq_nil {before after : List ScheduleDefinition} :
    diffSchedules before after = [] ↔ Matched (·.name) before after := by
  rw [diffSchedules, List.append_eq_nil_iff, List.map_eq_nil_iff, removed_eq_nil,
    List.filterMap_eq_nil_iff]
  simp only [scheduleChange_eq_none, Matched]

/-- With distinct keys, being matched is having the same elements. -/
theorem matched_iff_perm {α κ : Type} [DecidableEq κ] {key : α → κ} {before after : List α}
    (distinctBefore : (before.map key).Nodup) (distinctAfter : (after.map key).Nodup) :
    Matched key before after ↔ before.Perm after := by
  rw [List.perm_ext_iff_of_nodup (List.Nodup.of_map key distinctBefore) (List.Nodup.of_map key distinctAfter)]
  simp only [Matched, mapGet_eq_some distinctBefore, and_true]
  constructor
  · rintro ⟨within, covers⟩ a
    refine ⟨fun member => ?_, within a⟩
    obtain ⟨b, there, same⟩ := covers a member
    have found : b = a := List.inj_on_of_nodup_map distinctBefore (within b there) member same
    exact found ▸ there
  · intro same
    exact ⟨fun a member => (same a).mpr member, fun a member => ⟨a, (same a).mp member, rfl⟩⟩

/-- Two jobs agree on everything but schedules and target servers. -/
structure AgreeElsewhere (first second : JobDefinition) : Prop where
  header : { first with steps := [], schedules := [], targetServers := [] } =
    { second with steps := [], schedules := [], targetServers := [] }
  steps : first.steps.Perm second.steps

/-- The diff looks at everything but the target servers, and at schedules name
by name. -/
theorem diffJobDefinitions_eq_nil {before after : JobDefinition} (distinctBefore : before.stepIds.Nodup)
    (distinctAfter : after.stepIds.Nodup) :
    diffJobDefinitions before after = [] ↔
      AgreeElsewhere before after ∧ Matched (·.name) before.schedules after.schedules := by
  simp only [diffJobDefinitions, List.append_eq_nil_iff, List.map_eq_nil_iff, changedFields_eq_nil,
    diffSteps_eq_nil, diffSchedules_eq_nil, matched_iff_perm distinctBefore distinctAfter,
    notificationFields_complete, and_congr_left_iff]
  intro _
  constructor
  · rintro ⟨⟨fields, notifications⟩, steps⟩
    simp only [JOB_SCALAR_FIELDS, List.forall_mem_cons, FieldValue.string.injEq, FieldValue.number.injEq,
      FieldValue.bool.injEq, textField_inj] at fields
    obtain ⟨name, description, enabled, category, owner, start, -⟩ := fields
    refine ⟨?_, steps⟩
    rw [name, description, enabled, category, owner, start, notifications]
  · rintro ⟨header, steps⟩
    simp only [JobDefinition.mk.injEq, and_true] at header
    obtain ⟨name, description, enabled, category, owner, start, notifications⟩ := header
    refine ⟨⟨?_, notifications⟩, steps⟩
    simp [JOB_SCALAR_FIELDS, name, description, enabled, category, owner, start]

/-! ## Where the diff is faithful -/

/-- Once two jobs agree on all else, the diff must not be taken in by schedules
that share a name, nor by target servers. -/
def Discerned (before after : JobDefinition) : Prop :=
  AgreeElsewhere before after →
    (Matched (·.name) before.schedules after.schedules →
      before.schedules.Perm after.schedules ∧ before.targetServers.Perm after.targetServers) ∧
    (before.schedules.Perm after.schedules → before.targetServers.Perm after.targetServers →
      ∀ first ∈ before.schedules, ∀ second ∈ before.schedules, first.name = second.name → first = second)

/-- Schedules in another order match by name exactly if no name is ambiguous. -/
private theorem matched_of_perm {before after : List ScheduleDefinition} (same : before.Perm after) :
    Matched (·.name) before after ↔
      ∀ first ∈ before, ∀ second ∈ before, first.name = second.name → first = second := by
  constructor
  · rintro ⟨within, -⟩ first firstMember second secondMember named
    have foundFirst : mapGet (·.name) before first.name = some first :=
      within first (same.mem_iff.mp firstMember)
    have foundSecond : mapGet (·.name) before second.name = some second :=
      within second (same.mem_iff.mp secondMember)
    rw [named, foundSecond] at foundFirst
    exact (Option.some.inj foundFirst).symm
  · intro unambiguous
    refine ⟨fun a member => ?_, fun a member => ⟨a, same.mem_iff.mp member, rfl⟩⟩
    have there := same.mem_iff.mpr member
    have present : (mapGet (·.name) before a.name).isSome = true := mapGet_isSome.mpr ⟨a, there, rfl⟩
    obtain ⟨found, located⟩ := Option.isSome_iff_exists.mp present
    obtain ⟨foundMember, named⟩ := mapGet_mem located
    rw [located, unambiguous found foundMember a there named]

/-- For normal forms the intended equivalence compares texts as they are. -/
private theorem equivalent_normal {first second : JobDefinition}
    (normalFirst : normaliseJobDefinition first = first)
    (normalSecond : normaliseJobDefinition second = second) :
    Equivalent first second ↔ AgreeElsewhere first second ∧ first.schedules.Perm second.schedules ∧
      first.targetServers.Perm second.targetServers := by
  have texts : ∀ {job : JobDefinition}, normaliseJobDefinition job = job →
      job.description.map normaliseText = job.description ∧ job.steps.map JobStep.normalised = job.steps := by
    intro job normal
    have commands := normaliseJobDefinition_commands job
    rw [normal] at commands
    exact ⟨congrArg JobDefinition.description normal, commands⟩
  obtain ⟨descriptionFirst, stepsFirst⟩ := texts normalFirst
  obtain ⟨descriptionSecond, stepsSecond⟩ := texts normalSecond
  constructor
  · rintro ⟨header, description, steps, schedules, servers⟩
    rw [descriptionFirst, descriptionSecond] at description
    rw [stepsFirst, stepsSecond] at steps
    simp only [JobDefinition.mk.injEq, and_true, true_and] at header
    obtain ⟨name, enabled, category, owner, start, notifications⟩ := header
    exact ⟨⟨by rw [name, description, enabled, category, owner, start, notifications], steps⟩,
      schedules, servers⟩
  · rintro ⟨⟨header, steps⟩, schedules, servers⟩
    have description := congrArg JobDefinition.description header
    have rest := congrArg (fun job : JobDefinition => { job with description := none }) header
    refine ⟨rest, ?_, ?_, schedules, servers⟩
    · rw [descriptionFirst, descriptionSecond]
      exact description
    · rwa [stepsFirst, stepsSecond]

/-- **The diff is empty exactly when the canonical texts agree**, for the pairs
of normalised jobs it can tell apart and for no others. -/
theorem diffJobDefinitions_faithful_iff {before after : JobDefinition}
    (admitsBefore : jobDefinitionSchema before.toValue = some before)
    (admitsAfter : jobDefinitionSchema after.toValue = some after)
    (normalBefore : normaliseJobDefinition before = before)
    (normalAfter : normaliseJobDefinition after = after)
    (distinctBefore : before.stepIds.Nodup) (distinctAfter : after.stepIds.Nodup) :
    (diffJobDefinitions before after = [] ↔
        canonicaliseJob before.toValue = canonicaliseJob after.toValue) ↔
      Discerned before after := by
  rw [canonicaliseJob_normal admitsBefore admitsAfter, normaliseJobDefinition_eq_iff distinctBefore,
    equivalent_normal normalBefore normalAfter, diffJobDefinitions_eq_nil distinctBefore distinctAfter,
    Discerned]
  by_cases agree : AgreeElsewhere before after
  · simp only [agree, true_and, true_imp_iff]
    constructor
    · intro faithful
      refine ⟨faithful.mp, fun schedules servers => ?_⟩
      exact (matched_of_perm schedules).mp (faithful.mpr ⟨schedules, servers⟩)
    · rintro ⟨sees, quiet⟩
      refine ⟨sees, fun ⟨schedules, servers⟩ => ?_⟩
      exact (matched_of_perm schedules).mpr (quiet schedules servers)
  · simp only [agree, false_and, false_imp_iff]

def sampleSchedule (activeStartTime : Int) : ScheduleDefinition where
  name := js "Nightly"
  enabled := true
  freqType := 4
  freqInterval := 1
  freqSubdayType := 1
  freqSubdayInterval := 0
  freqRelativeInterval := 0
  freqRecurrenceFactor := 0
  activeStartDate := 20240101
  activeEndDate := 99991231
  activeStartTime := activeStartTime
  activeEndTime := 235959

/-- A job of one step that runs on one server. -/
def targeting (server : JsString) : JobDefinition :=
  { sampleJob 1 [sampleStep 1 StepAction.QuitWithSuccess 0 StepAction.QuitWithFailure 0] with
    targetServers := [server] }

/-- A job of one step with two schedules of one name. -/
def twiceNightly : JobDefinition :=
  { sampleJob 1 [sampleStep 1 StepAction.QuitWithSuccess 0 StepAction.QuitWithFailure 0] with
    schedules := [sampleSchedule 20000, sampleSchedule 30000] }

/-- Retargeting a job shows no change, and a job with two schedules of one name
has changed since itself. -/
theorem diffJobDefinitions_unfaithful :
    (∀ job ∈ [targeting (js "(local)"), targeting (js "SQL02"), twiceNightly],
      jobDefinitionSchema job.toValue = some job ∧ normaliseJobDefinition job = job ∧ job.stepIds.Nodup) ∧
    ¬(diffJobDefinitions (targeting (js "(local)")) (targeting (js "SQL02")) = [] ↔
      canonicaliseJob (targeting (js "(local)")).toValue =
        canonicaliseJob (targeting (js "SQL02")).toValue) ∧
    ¬(diffJobDefinitions twiceNightly twiceNightly = [] ↔
      canonicaliseJob twiceNightly.toValue = canonicaliseJob twiceNightly.toValue) := by
  have admits : ∀ job ∈ [targeting (js "(local)"), targeting (js "SQL02"), twiceNightly],
      jobDefinitionSchema job.toValue = some job ∧ normaliseJobDefinition job = job ∧
        job.stepIds.Nodup := by decide +kernel
  refine ⟨admits, fun faithful => ?_, fun faithful => ?_⟩
  · have silent : diffJobDefinitions (targeting (js "(local)")) (targeting (js "SQL02")) = [] := by decide
    have same := (canonicaliseJob_normal (admits _ (by simp)).1 (admits _ (by simp)).1).mp
      (faithful.mp silent)
    exact absurd same (by decide)
  · exact absurd (faithful.mpr rfl) (by decide)

/-- A new command shows up. -/
theorem diffJobDefinitions_faithful_iff_command :
    let before := sampleJob 1 [sampleStep 1 StepAction.QuitWithSuccess 0 StepAction.QuitWithFailure 0]
    let after := sampleJob 1 [{ sampleStep 1 StepAction.QuitWithSuccess 0 StepAction.QuitWithFailure 0 with
      command := js "EXEC dbo.RunBackup @verify = 1;" }]
    (diffJobDefinitions before after = [] ↔
        canonicaliseJob before.toValue = canonicaliseJob after.toValue) ↔
      Discerned before after :=
  diffJobDefinitions_faithful_iff (by decide) (by decide) (by decide) (by decide) (by decide) (by decide)

end RemoteSqlAgent
