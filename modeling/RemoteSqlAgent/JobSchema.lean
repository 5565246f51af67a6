import RemoteSqlAgent.CanonicalEquivalence

/-! What the schema of a job admits, and that it does not look at the order in which a value lists
its properties. -/
namespace RemoteSqlAgent
open Js

/-! ## Values without parts -/

section Leaves
variable {value : JsValue} {n min max : Int} {text : JsString} {low high : Nat}

/-- `Number.isSafeInteger`. -/
def IsSafeInteger (n : Int) : Prop := n.natAbs < 2 ^ 53

theorem zString_eq_some : zString value = some text ↔ value = .string text := by
  cases value <;> simp [zString]

theorem zBoolean_eq_some {b : Bool} : zBoolean value = some b ↔ value = .bool b := by
  cases value <;> simp [zBoolean]

theorem zInt_eq_some : zInt value = some n ↔ value = .number n ∧ IsSafeInteger n := by
  cases value with
  | number m =>
    rw [zInt, JsValue.number.injEq]
    split
    · rename_i safe
      rw [Option.some.injEq]
      exact ⟨fun same => ⟨same, same ▸ safe⟩, And.left⟩
    · rename_i unsafe_
      exact ⟨nofun, fun ⟨same, safe⟩ => absurd safe (same ▸ unsafe_)⟩
  | undefined | null | bool | string | array | object => simp [zInt]

theorem zIntMin_eq_some : zIntMin min value = some n ↔ value = .number n ∧ IsSafeInteger n ∧ min ≤ n := by
  rw [zIntMin, Option.filter_eq_some_iff, zInt_eq_some, decide_eq_true_eq, and_assoc]

theorem zIntBetween_eq_some :
    zIntBetween min max value = some n ↔ value = .number n ∧ IsSafeInteger n ∧ min ≤ n ∧ n ≤ max := by
  rw [zIntBetween, Option.filter_eq_some_iff, zInt_eq_some, Bool.and_eq_true, decide_eq_true_eq, decide_eq_true_eq,
    and_assoc]

theorem zStringBetween_eq_some : zStringBetween low high value = some text ↔
    value = .string text ∧ low ≤ text.length ∧ text.length ≤ high := by
  rw [zStringBetween, Option.filter_eq_some_iff, zString_eq_some, Bool.and_eq_true, decide_eq_true_eq,
    decide_eq_true_eq]

theorem zNullable_eq_some {text : Option JsString} : zNullable zString value = some text ↔ value = nullable text := by
  cases value <;> cases text <;> simp [zNullable, zString, nullable]

theorem stepSubsystemSchema_eq_some {subsystem : StepSubsystem} :
    stepSubsystemSchema value = some subsystem ↔ value = .string subsystem.text := by
  constructor
  · intro read
    obtain ⟨text, spelled, found⟩ := Option.bind_eq_some_iff.mp read
    have same : subsystem.text = text := by simpa using List.find?_some found
    rw [zString_eq_some.mp spelled, same]
  · rintro rfl
    cases subsystem <;> rfl

theorem zArray_eq_some {α : Type} {schema : JsValue → Option α} {xs : List α} : zArray schema value = some xs ↔
    ∃ elements, value = .array elements ∧ List.Forall₂ (fun element x => schema element = some x) elements xs := by
  cases value with
  | array elements =>
    have each : elements.mapM schema = some xs ↔
        List.Forall₂ (fun element x => schema element = some x) elements xs := by
      induction elements generalizing xs with
      | nil => simp [eq_comm]
      | cons element rest ih =>
        simp only [List.mapM_cons, Option.bind_eq_bind, Option.bind_eq_some_iff, Option.pure_def, Option.some.injEq, ih,
          List.forall₂_cons_left_iff]
        constructor
        · rintro ⟨x, head, others, tail, rfl⟩
          exact ⟨x, others, head, tail, rfl⟩
        · rintro ⟨x, others, head, tail, rfl⟩
          exact ⟨x, head, others, tail, rfl⟩
    simpa [zArray] using each
  | undefined | null | bool | number | string | object => simp [zArray]

private theorem zObject_eq_some {α : Type} {shape : (String → JsValue) → Option α} {a : α} :
    zObject shape value = some a ↔ ∃ fields, value = .object fields ∧ shape (readProperty fields) = some a := by
  cases value <;> simp [zObject]

end Leaves

/-! ## Records -/

/-- The numbers and the names of a step are within their bounds. -/
structure JobStep.Admissible (step : JobStep) : Prop where
  stepId : IsSafeInteger step.stepId ∧ 1 ≤ step.stepId
  name : 1 ≤ step.name.length ∧ step.name.length ≤ 128
  onSuccessAction : IsSafeInteger step.onSuccessAction
  onSuccessStepId : IsSafeInteger step.onSuccessStepId
  onFailAction : IsSafeInteger step.onFailAction
  onFailStepId : IsSafeInteger step.onFailStepId
  retryAttempts : IsSafeInteger step.retryAttempts ∧ 0 ≤ step.retryAttempts
  retryIntervalMinutes : IsSafeInteger step.retryIntervalMinutes ∧ 0 ≤ step.retryIntervalMinutes
  flags : IsSafeInteger step.flags ∧ 0 ≤ step.flags

structure ScheduleDefinition.Admissible (schedule : ScheduleDefinition) : Prop where
  name : 1 ≤ schedule.name.length ∧ schedule.name.length ≤ 128
  freqType : IsSafeInteger schedule.freqType
  freqInterval : IsSafeInteger schedule.freqInterval
  freqSubdayType : IsSafeInteger schedule.freqSubdayType
  freqSubdayInterval : IsSafeInteger schedule.freqSubdayInterval
  freqRelativeInterval : IsSafeInteger schedule.freqRelativeInterval
  freqRecurrenceFactor : IsSafeInteger schedule.freqRecurrenceFactor
  activeStartDate : IsSafeInteger schedule.activeStartDate
  activeEndDate : IsSafeInteger schedule.activeEndDate
  activeStartTime : IsSafeInteger schedule.activeStartTime
  activeEndTime : IsSafeInteger schedule.activeEndTime

structure JobNotifications.Admissible (notifications : JobNotifications) : Prop where
  emailLevel : IsSafeInteger notifications.emailLevel ∧ 0 ≤ notifications.emailLevel ∧ notifications.emailLevel ≤ 3
  netsendLevel :
    IsSafeInteger notifications.netsendLevel ∧ 0 ≤ notifications.netsendLevel ∧ notifications.netsendLevel ≤ 3
  pageLevel : IsSafeInteger notifications.pageLevel ∧ 0 ≤ notifications.pageLevel ∧ notifications.pageLevel ≤ 3
  eventlogLevel :
    IsSafeInteger notifications.eventlogLevel ∧ 0 ≤ notifications.eventlogLevel ∧ notifications.eventlogLevel ≤ 3
  deleteLevel : IsSafeInteger notifications.deleteLevel ∧ 0 ≤ notifications.deleteLevel ∧ notifications.deleteLevel ≤ 3

structure JobDefinition.Admissible (definition : JobDefinition) : Prop where
  name : 1 ≤ definition.name.length ∧ definition.name.length ≤ 128
  startStepId : IsSafeInteger definition.startStepId ∧ 1 ≤ definition.startStepId
  notifications : definition.notifications.Admissible
  steps : ∀ step ∈ definition.steps, step.Admissible
  schedules : ∀ schedule ∈ definition.schedules, schedule.Admissible

section Records
variable {value : JsValue}

private theorem reads_first {α β : Type} {first : Option α} {next : α → Option β} {result : β} :
    first >>= next = some result ↔ ∃ a, first = some a ∧ next a = some result := Option.bind_eq_some_iff

private theorem reads_all {α : Type} {a result : α} : (pure a : Option α) = some result ↔ a = result :=
  Option.some_inj

theorem jobStepSchema_admissible {step : JobStep} (read : jobStepSchema value = some step) : step.Admissible := by
  obtain ⟨fields, -, shape⟩ := zObject_eq_some.mp read
  simp only [↓reads_first, ↓reads_all, zIntMin_eq_some, zInt_eq_some, zStringBetween_eq_some] at shape
  obtain ⟨stepId, ⟨-, stepIdBounds⟩, name, ⟨-, nameBounds⟩, subsystem, -, command, -, database, -, user, -,
    onSuccess, ⟨-, onSuccessSafe⟩, onSuccessStep, ⟨-, onSuccessStepSafe⟩, onFail, ⟨-, onFailSafe⟩,
    onFailStep, ⟨-, onFailStepSafe⟩, attempts, ⟨-, attemptsBounds⟩, interval, ⟨-, intervalBounds⟩, output, -,
    flags, ⟨-, flagsBounds⟩, proxy, -, rfl⟩ := shape
  exact ⟨stepIdBounds, nameBounds, onSuccessSafe, onSuccessStepSafe, onFailSafe, onFailStepSafe, attemptsBounds,
    intervalBounds, flagsBounds⟩

theorem scheduleDefinitionSchema_admissible {schedule : ScheduleDefinition}
    (read : scheduleDefinitionSchema value = some schedule) : schedule.Admissible := by
  obtain ⟨fields, -, shape⟩ := zObject_eq_some.mp read
  simp only [↓reads_first, ↓reads_all, zInt_eq_some, zStringBetween_eq_some] at shape
  obtain ⟨name, ⟨-, nameBounds⟩, enabled, -, freqType, ⟨-, typeSafe⟩, freqInterval, ⟨-, intervalSafe⟩,
    subdayType, ⟨-, subdayTypeSafe⟩, subdayInterval, ⟨-, subdayIntervalSafe⟩, relative, ⟨-, relativeSafe⟩,
    recurrence, ⟨-, recurrenceSafe⟩, startDate, ⟨-, startDateSafe⟩, endDate, ⟨-, endDateSafe⟩,
    startTime, ⟨-, startTimeSafe⟩, endTime, ⟨-, endTimeSafe⟩, rfl⟩ := shape
  exact ⟨nameBounds, typeSafe, intervalSafe, subdayTypeSafe, subdayIntervalSafe, relativeSafe, recurrenceSafe,
    startDateSafe, endDateSafe, startTimeSafe, endTimeSafe⟩

theorem jobNotificationsSchema_admissible {notifications : JobNotifications}
    (read : jobNotificationsSchema value = some notifications) : notifications.Admissible := by
  obtain ⟨fields, -, shape⟩ := zObject_eq_some.mp read
  simp only [↓reads_first, ↓reads_all, zIntBetween_eq_some] at shape
  obtain ⟨emailOperator, -, email, ⟨-, emailBounds⟩, netsendOperator, -, netsend, ⟨-, netsendBounds⟩,
    pageOperator, -, page, ⟨-, pageBounds⟩, eventlog, ⟨-, eventlogBounds⟩, delete, ⟨-, deleteBounds⟩, rfl⟩ := shape
  exact ⟨emailBounds, netsendBounds, pageBounds, eventlogBounds, deleteBounds⟩

private theorem zArray_each {α : Type} {schema : JsValue → Option α} {Valid : α → Prop} {xs : List α}
    (valid : ∀ {element x}, schema element = some x → Valid x) (read : zArray schema value = some xs) :
    ∀ x ∈ xs, Valid x := by
  obtain ⟨elements, -, each⟩ := zArray_eq_some.mp read
  clear read
  induction each with
  | nil => simp
  | cons head _ ih => exact List.forall_mem_cons.mpr ⟨valid head, ih⟩

theorem jobDefinitionSchema_admissible {definition : JobDefinition}
    (read : jobDefinitionSchema value = some definition) : definition.Admissible := by
  obtain ⟨fields, -, shape⟩ := zObject_eq_some.mp read
  obtain ⟨version, -, shape⟩ := reads_first.mp shape
  split at shape
  · cases shape
  · simp only [↓reads_first, ↓reads_all, zIntMin_eq_some, zStringBetween_eq_some] at shape
    obtain ⟨name, ⟨-, nameBounds⟩, description, -, enabled, -, category, -, owner, -, start, ⟨-, startBounds⟩,
      notifications, readNotifications, steps, readSteps, schedules, readSchedules, servers, -, rfl⟩ := shape
    exact ⟨nameBounds, startBounds, jobNotificationsSchema_admissible readNotifications,
      zArray_each jobStepSchema_admissible readSteps, zArray_each scheduleDefinitionSchema_admissible readSchedules⟩

end Records

section Reading
variable {value : JsValue} (plain : Plain value)

private theorem eq_of_same_nullable {text : Option JsString} (same : Same value (nullable text)) :
    value = nullable text := by
  cases text <;> (cases same; rfl)

include plain

theorem jobStepSchema_of_same {step : JobStep} (same : Same value step.toValue) (valid : step.Admissible) :
    jobStepSchema value = some step := by
  obtain ⟨own, rfl⟩ := eq_of_same_object same
  have reads := same.properties plain (by simp)
  simp only [List.forall_mem_cons] at reads
  obtain ⟨stepId, name, subsystem, command, database, user, onSuccess, onSuccessStep, onFail, onFailStep, attempts,
    interval, output, flags, proxy, -⟩ := reads
  apply zObject_eq_some.mpr
  refine ⟨own, rfl, ?_⟩
  simp only [↓reads_first, ↓reads_all]
  exact ⟨_, zIntMin_eq_some.mpr ⟨eq_of_same_number stepId, valid.stepId⟩,
    _, zStringBetween_eq_some.mpr ⟨eq_of_same_string name, valid.name⟩,
    _, stepSubsystemSchema_eq_some.mpr (eq_of_same_string subsystem),
    _, zString_eq_some.mpr (eq_of_same_string command),
    _, zNullable_eq_some.mpr (eq_of_same_nullable database),
    _, zNullable_eq_some.mpr (eq_of_same_nullable user),
    _, zInt_eq_some.mpr ⟨eq_of_same_number onSuccess, valid.onSuccessAction⟩,
    _, zInt_eq_some.mpr ⟨eq_of_same_number onSuccessStep, valid.onSuccessStepId⟩,
    _, zInt_eq_some.mpr ⟨eq_of_same_number onFail, valid.onFailAction⟩,
    _, zInt_eq_some.mpr ⟨eq_of_same_number onFailStep, valid.onFailStepId⟩,
    _, zIntMin_eq_some.mpr ⟨eq_of_same_number attempts, valid.retryAttempts⟩,
    _, zIntMin_eq_some.mpr ⟨eq_of_same_number interval, valid.retryIntervalMinutes⟩,
    _, zNullable_eq_some.mpr (eq_of_same_nullable output),
    _, zIntMin_eq_some.mpr ⟨eq_of_same_number flags, valid.flags⟩,
    _, zNullable_eq_some.mpr (eq_of_same_nullable proxy), rfl⟩

theorem scheduleDefinitionSchema_of_same {schedule : ScheduleDefinition} (same : Same value schedule.toValue)
    (valid : schedule.Admissible) : scheduleDefinitionSchema value = some schedule := by
  obtain ⟨own, rfl⟩ := eq_of_same_object same
  have reads := same.properties plain (by simp)
  simp only [List.forall_mem_cons] at reads
  obtain ⟨name, enabled, freqType, freqInterval, subdayType, subdayInterval, relative, recurrence, startDate, endDate,
    startTime, endTime, -⟩ := reads
  apply zObject_eq_some.mpr
  refine ⟨own, rfl, ?_⟩
  simp only [↓reads_first, ↓reads_all]
  exact ⟨_, zStringBetween_eq_some.mpr ⟨eq_of_same_string name, valid.name⟩,
    _, zBoolean_eq_some.mpr (eq_of_same_bool enabled),
    _, zInt_eq_some.mpr ⟨eq_of_same_number freqType, valid.freqType⟩,
    _, zInt_eq_some.mpr ⟨eq_of_same_number freqInterval, valid.freqInterval⟩,
    _, zInt_eq_some.mpr ⟨eq_of_same_number subdayType, valid.freqSubdayType⟩,
    _, zInt_eq_some.mpr ⟨eq_of_same_number subdayInterval, valid.freqSubdayInterval⟩,
    _, zInt_eq_some.mpr ⟨eq_of_same_number relative, valid.freqRelativeInterval⟩,
    _, zInt_eq_some.mpr ⟨eq_of_same_number recurrence, valid.freqRecurrenceFactor⟩,
    _, zInt_eq_some.mpr ⟨eq_of_same_number startDate, valid.activeStartDate⟩,
    _, zInt_eq_some.mpr ⟨eq_of_same_number endDate, valid.activeEndDate⟩,
    _, zInt_eq_some.mpr ⟨eq_of_same_number startTime, valid.activeStartTime⟩,
    _, zInt_eq_some.mpr ⟨eq_of_same_number endTime, valid.activeEndTime⟩, rfl⟩

theorem jobNotificationsSchema_of_same {notifications : JobNotifications} (same : Same value notifications.toValue)
    (valid : notifications.Admissible) : jobNotificationsSchema value = some notifications := by
  obtain ⟨own, rfl⟩ := eq_of_same_object same
  have reads := same.properties plain (by simp)
  simp only [List.forall_mem_cons] at reads
  obtain ⟨emailOperator, email, netsendOperator, netsend, pageOperator, page, eventlog, delete, -⟩ := reads
  apply zObject_eq_some.mpr
  refine ⟨own, rfl, ?_⟩
  simp only [↓reads_first, ↓reads_all]
  exact ⟨_, zNullable_eq_some.mpr (eq_of_same_nullable emailOperator),
    _, zIntBetween_eq_some.mpr ⟨eq_of_same_number email, valid.emailLevel⟩,
    _, zNullable_eq_some.mpr (eq_of_same_nullable netsendOperator),
    _, zIntBetween_eq_some.mpr ⟨eq_of_same_number netsend, valid.netsendLevel⟩,
    _, zNullable_eq_some.mpr (eq_of_same_nullable pageOperator),
    _, zIntBetween_eq_some.mpr ⟨eq_of_same_number page, valid.pageLevel⟩,
    _, zIntBetween_eq_some.mpr ⟨eq_of_same_number eventlog, valid.eventlogLevel⟩,
    _, zIntBetween_eq_some.mpr ⟨eq_of_same_number delete, valid.deleteLevel⟩, rfl⟩

private theorem zArray_of_same {α : Type} {schema : JsValue → Option α} {toValue : α → JsValue} {xs : List α}
    (same : Same value (.array (xs.map toValue)))
    (reads : ∀ x ∈ xs, ∀ {element}, Plain element → Same element (toValue x) → schema element = some x) :
    zArray schema value = some xs := by
  obtain ⟨elements, rfl, each⟩ := eq_of_same_array same
  cases plain with
  | array plainEach =>
    refine zArray_eq_some.mpr ⟨elements, rfl, ?_⟩
    rw [List.forall₂_map_right_iff] at each
    clear same
    induction each with
    | nil => exact .nil
    | cons head _ ih =>
      refine .cons (reads _ List.mem_cons_self (plainEach _ List.mem_cons_self) head) (ih ?_ ?_)
      · exact fun x member => reads x (List.mem_cons_of_mem _ member)
      · exact fun element member => plainEach element (List.mem_cons_of_mem _ member)

/-- **The schema reads a job from any value that says what the job does**, in whatever order the
properties stand. -/
theorem jobDefinitionSchema_of_same {definition : JobDefinition} (same : Same value definition.toValue)
    (valid : definition.Admissible) : jobDefinitionSchema value = some definition := by
  obtain ⟨own, rfl⟩ := eq_of_same_object same
  have reads := same.properties plain (by simp [JobNotifications.toValue])
  simp only [List.forall_mem_cons] at reads
  obtain ⟨version, name, description, enabled, category, owner, start, notifications, steps, schedules, servers, -⟩ :=
    reads
  have readNotifications :=
    jobNotificationsSchema_of_same (plain.property _) notifications valid.notifications
  have readSteps := zArray_of_same (plain.property _) steps
    fun step member _ plain same => jobStepSchema_of_same plain same (valid.steps step member)
  have readSchedules := zArray_of_same (plain.property _) schedules
    fun schedule member _ plain same =>
      scheduleDefinitionSchema_of_same plain same (valid.schedules schedule member)
  have readServers := zArray_of_same (plain.property _) servers
    fun server _ _ _ same => zString_eq_some.mpr (eq_of_same_string same)
  apply zObject_eq_some.mpr
  refine ⟨own, rfl, reads_first.mpr ⟨_, zString_eq_some.mpr (eq_of_same_string version), ?_⟩⟩
  rw [if_neg (not_not.mpr rfl)]
  simp only [↓reads_first, ↓reads_all]
  exact ⟨_, zStringBetween_eq_some.mpr ⟨eq_of_same_string name, valid.name⟩,
    _, zNullable_eq_some.mpr (eq_of_same_nullable description),
    _, zBoolean_eq_some.mpr (eq_of_same_bool enabled),
    _, zNullable_eq_some.mpr (eq_of_same_nullable category),
    _, zNullable_eq_some.mpr (eq_of_same_nullable owner),
    _, zIntMin_eq_some.mpr ⟨eq_of_same_number start, valid.startStepId⟩,
    _, readNotifications, _, readSteps, _, readSchedules, _, readServers, rfl⟩

end Reading

end RemoteSqlAgent
