import RemoteSqlAgent.CommandHandler
import RemoteSqlAgent.JobSchema
import RemoteSqlAgent.JsonReading

/-! A job survives its canonical text: what is parsed from the text is the normalised job, and its
own canonical text and hash are those it was parsed from. -/
namespace RemoteSqlAgent
open Js

/-! ## Sorted keys are read back -/

/-- Every number in a value is a safe integer. -/
inductive SafeNumbers : JsValue → Prop
  | undefined : SafeNumbers .undefined
  | null : SafeNumbers .null
  | bool (b : Bool) : SafeNumbers (.bool b)
  | number {n : Int} (safe : IsSafeInteger n) : SafeNumbers (.number n)
  | string (s : JsString) : SafeNumbers (.string s)
  | array {elements : List JsValue} (each : ∀ value ∈ elements, SafeNumbers value) : SafeNumbers (.array elements)
  | object {fields : List (JsString × JsValue)} (each : ∀ field ∈ fields, SafeNumbers field.2) :
      SafeNumbers (.object fields)

/-- The properties of a sorted object have names of their own and stand in property order. -/
private theorem sortKeysDeep_listing {fields : List (JsString × JsValue)} {sorted : List (JsString × JsonValue)}
    (distinct : (fields.map Prod.fst).Nodup) (ran : sortKeysDeep (.object fields) = .ok (.object sorted)) :
    (sorted.map Prod.fst).Nodup ∧ propertyOrder sorted = sorted := by
  rw [sortKeysDeep, bind_eq_ok] at ran
  obtain ⟨converted, ran, same⟩ := ran
  cases same
  have names : (definedFields fields).map Prod.fst = converted.map Prod.fst := by
    rw [← List.forall₂_eq_eq_eq, List.forall₂_map_left_iff, List.forall₂_map_right_iff]
    exact (sortKeysFields_ok.mp ran).imp fun _ _ => And.left
  have distinctConverted : (converted.map Prod.fst).Nodup := by
    rw [← names]
    exact distinct.sublist (List.filter_sublist.map Prod.fst)
  have distinctSorted := ((sortBy_perm (fun a b => compareDefault a.1 b.1) converted).map Prod.fst).nodup_iff.mpr
    distinctConverted
  refine ⟨?_, propertyOrder_idempotent _⟩
  rw [assignAll, ((propertyOrder_perm _).map Prod.fst).nodup_iff]
  exact distinctSorted.sublist (List.filter_sublist.map Prod.fst)

/-- What is serialised is a value that `JSON.parse` could have built. -/
theorem sortKeysDeep_regular {value : JsValue} {json : JsonValue} (plain : Plain value) (safe : SafeNumbers value)
    (ran : sortKeysDeep value = .ok json) : json.Regular := by
  induction plain generalizing json with
  | undefined => cases ran
  | null =>
    cases ran
    exact .null
  | bool b =>
    cases ran
    exact .bool b
  | number n =>
    cases ran
    cases safe with
    | number safe => exact .number safe
  | string s =>
    cases ran
    exact .string s
  | array _ ih =>
    obtain ⟨sorted, rfl, each⟩ := sortKeysDeep_array ran
    cases safe with
    | array safeEach =>
      refine .array fun element member => ?_
      obtain ⟨original, there, from_⟩ := (forall₂_partner each).2 element member
      exact ih original there (safeEach original there) from_
  | object distinct _ _ ih =>
    obtain ⟨sorted, rfl, from_, -⟩ := sortKeysDeep_object ran
    obtain ⟨distinctSorted, ordered⟩ := sortKeysDeep_listing distinct ran
    cases safe with
    | object safeEach =>
      refine .object distinctSorted ordered fun field member => ?_
      obtain ⟨-, original, there, becomes⟩ := from_ field.1 field.2 member
      have own := List.mem_of_mem_filter there
      exact ih _ own (safeEach _ own) becomes

/-- What sorting keys gives is plain. -/
theorem sortKeysDeep_plain {value : JsValue} {json : JsonValue} (plain : Plain value)
    (ran : sortKeysDeep value = .ok json) : Plain json.toValue := by
  induction plain generalizing json with
  | undefined => cases ran
  | null =>
    cases ran
    exact .null
  | bool b =>
    cases ran
    exact .bool b
  | number n =>
    cases ran
    exact .number n
  | string s =>
    cases ran
    exact .string s
  | array _ ih =>
    obtain ⟨sorted, rfl, each⟩ := sortKeysDeep_array ran
    rw [JsonValue.toValue, JsonValue.toValues_eq_map]
    refine .array (List.forall_mem_map.mpr fun element member => ?_)
    obtain ⟨original, there, becomes⟩ := (forall₂_partner each).2 element member
    exact ih original there becomes
  | object distinct _ _ ih =>
    obtain ⟨sorted, rfl, from_, -⟩ := sortKeysDeep_object ran
    obtain ⟨distinctSorted, -⟩ := sortKeysDeep_listing distinct ran
    rw [JsonValue.toValue, JsonValue.toFields_eq_map]
    refine .object ?_ ?_ (List.forall_mem_map.mpr fun field member => ?_)
    · rw [List.map_map]
      exact distinctSorted
    · rw [List.map_map]
      intro member
      obtain ⟨field, there, named⟩ := List.mem_map.mp member
      exact (from_ field.1 field.2 there).1 named
    · obtain ⟨-, original, there, becomes⟩ := from_ field.1 field.2 member
      exact ih _ (List.mem_of_mem_filter there) becomes

/-- What sorting keys gives says what the value says. -/
theorem sortKeysDeep_same {value : JsValue} {json : JsonValue} (plain : Plain value)
    (ran : sortKeysDeep value = .ok json) : Same json.toValue value := by
  induction plain generalizing json with
  | undefined => cases ran
  | null =>
    cases ran
    exact .null
  | bool b =>
    cases ran
    exact .bool b
  | number n =>
    cases ran
    exact .number n
  | string s =>
    cases ran
    exact .string s
  | array plainEach ih =>
    obtain ⟨sorted, rfl, each⟩ := sortKeysDeep_array ran
    rw [JsonValue.toValue, JsonValue.toValues_eq_map]
    refine .array (List.forall₂_map_left_iff.mpr ?_)
    clear ran plainEach
    induction each with
    | nil => exact .nil
    | cons head _ onward =>
      refine .cons (ih _ List.mem_cons_self head) (onward fun original there => ?_)
      exact ih original (List.mem_cons_of_mem _ there)
  | object distinct noProto _ ih =>
    obtain ⟨sorted, rfl, from_, into⟩ := sortKeysDeep_object ran
    refine .object (fun name => ?_) fun name first second firstMember secondMember => ?_
    · rw [definedFields_toFields, JsonValue.toFields_eq_map, List.map_map]
      constructor
      · intro member
        obtain ⟨field, there, rfl⟩ := List.mem_map.mp member
        obtain ⟨-, original, own, -⟩ := from_ field.1 field.2 there
        exact List.mem_map.mpr ⟨(field.1, original), own, rfl⟩
      · intro member
        obtain ⟨field, there, rfl⟩ := List.mem_map.mp member
        have own : field.1 ≠ js "__proto__" := fun proto =>
          noProto (proto ▸ List.mem_map_of_mem (List.mem_of_mem_filter there))
        obtain ⟨value, kept, -⟩ := into field.1 field.2 there own
        exact List.mem_map_of_mem kept
    · -- A name comes in only once, so what came out under it is what went in.
      rw [definedFields_toFields, JsonValue.toFields_eq_map] at firstMember
      obtain ⟨field, there, same⟩ := List.mem_map.mp firstMember
      cases same
      obtain ⟨-, original, own, becomes⟩ := from_ field.1 field.2 there
      obtain rfl := eq_of_distinct distinct own secondMember
      exact ih _ (List.mem_of_mem_filter own) becomes

/-- A plain value says what it says. -/
theorem same_self {value : JsValue} (plain : Plain value) : Same value value := by
  induction plain with
  | undefined => exact .undefined
  | null => exact .null
  | bool b => exact .bool b
  | number n => exact .number n
  | string s => exact .string s
  | @array elements _ ih => exact .array (List.forall₂_same.mpr ih)
  | @object fields distinct _ _ ih =>
    refine .object (fun name => Iff.rfl) fun name first second firstMember secondMember => ?_
    obtain rfl := eq_of_distinct distinct firstMember secondMember
    exact ih _ (List.mem_of_mem_filter firstMember)

/-! ## Jobs -/

private theorem nullable_safe (text : Option JsString) : SafeNumbers (nullable text) := by
  cases text with
  | none => exact .null
  | some text => exact .string text

section Records

theorem JobStep.toValue_safe {step : JobStep} (valid : step.Admissible) : SafeNumbers step.toValue := by
  apply SafeNumbers.object
  simp only [List.forall_mem_cons, List.not_mem_nil, false_imp_iff, implies_true, nullable_safe, SafeNumbers.string,
    SafeNumbers.number valid.stepId.1, SafeNumbers.number valid.onSuccessAction,
    SafeNumbers.number valid.onSuccessStepId, SafeNumbers.number valid.onFailAction,
    SafeNumbers.number valid.onFailStepId, SafeNumbers.number valid.retryAttempts.1,
    SafeNumbers.number valid.retryIntervalMinutes.1, SafeNumbers.number valid.flags.1, and_self]

theorem ScheduleDefinition.toValue_safe {schedule : ScheduleDefinition} (valid : schedule.Admissible) :
    SafeNumbers schedule.toValue := by
  apply SafeNumbers.object
  simp only [List.forall_mem_cons, List.not_mem_nil, false_imp_iff, implies_true, SafeNumbers.string,
    SafeNumbers.bool, SafeNumbers.number valid.freqType, SafeNumbers.number valid.freqInterval,
    SafeNumbers.number valid.freqSubdayType, SafeNumbers.number valid.freqSubdayInterval,
    SafeNumbers.number valid.freqRelativeInterval, SafeNumbers.number valid.freqRecurrenceFactor,
    SafeNumbers.number valid.activeStartDate, SafeNumbers.number valid.activeEndDate,
    SafeNumbers.number valid.activeStartTime, SafeNumbers.number valid.activeEndTime, and_self]

theorem JobNotifications.toValue_safe {notifications : JobNotifications} (valid : notifications.Admissible) :
    SafeNumbers notifications.toValue := by
  apply SafeNumbers.object
  simp only [List.forall_mem_cons, List.not_mem_nil, false_imp_iff, implies_true, nullable_safe,
    SafeNumbers.number valid.emailLevel.1, SafeNumbers.number valid.netsendLevel.1,
    SafeNumbers.number valid.pageLevel.1, SafeNumbers.number valid.eventlogLevel.1,
    SafeNumbers.number valid.deleteLevel.1, and_self]

theorem JobDefinition.toValue_safe {definition : JobDefinition} (valid : definition.Admissible) :
    SafeNumbers definition.toValue := by
  have steps : SafeNumbers (.array (definition.steps.map JobStep.toValue)) :=
    .array (List.forall_mem_map.mpr fun step member => JobStep.toValue_safe (valid.steps step member))
  have schedules : SafeNumbers (.array (definition.schedules.map ScheduleDefinition.toValue)) :=
    .array (List.forall_mem_map.mpr fun schedule member =>
      ScheduleDefinition.toValue_safe (valid.schedules schedule member))
  have servers : SafeNumbers (.array (definition.targetServers.map .string)) :=
    .array (List.forall_mem_map.mpr fun server _ => .string server)
  apply SafeNumbers.object
  simp only [List.forall_mem_cons, List.not_mem_nil, false_imp_iff, implies_true, nullable_safe, SafeNumbers.string,
    SafeNumbers.bool, SafeNumbers.number valid.startStepId.1, JobNotifications.toValue_safe valid.notifications,
    steps, schedules, servers, and_self]

end Records

/-- What the schema admits, it admits in normal form. -/
theorem normaliseJobDefinition_admissible {definition : JobDefinition} (valid : definition.Admissible) :
    (normaliseJobDefinition definition).Admissible where
  name := valid.name
  startStepId := valid.startStepId
  notifications := valid.notifications
  steps step member := by
    obtain ⟨original, there, rfl⟩ := List.mem_map.mp member
    have own := valid.steps original (mem_sortBy.mp there)
    exact ⟨own.stepId, own.name, own.onSuccessAction, own.onSuccessStepId, own.onFailAction, own.onFailStepId,
      own.retryAttempts, own.retryIntervalMinutes, own.flags⟩
  schedules schedule member := valid.schedules schedule (mem_sortBy.mp member)

/-! ## Parsing and canonicalising again -/

/-- The platform's `JSON.parse` reads a text as `JSON.parse` does. -/
def ReadsJson (runtime : Runtime) : Prop :=
  ∀ text value, Js.parseJson text = some value → runtime.parseJson text = .ok value

section RoundTrip
variable {runtime : Runtime} {definition : JobDefinition} {text : JsString}

/-- What is parsed from a canonical text says what the job says, and the schema reads the job from it. -/
theorem parseJson_canonical (reads : ReadsJson runtime) (valid : definition.Admissible)
    (spelled : canonicalJsonStringify definition.toValue = .ok text) :
    ∃ value, runtime.parseJson text = .ok value ∧ Same value definition.toValue ∧
      jobDefinitionSchema value = some definition := by
  obtain ⟨json, sorted, rfl⟩ := canonicalJsonStringify_eq_ok.mp spelled
  have regular := sortKeysDeep_regular definition.toValue_plain (JobDefinition.toValue_safe valid) sorted
  have plain := sortKeysDeep_plain definition.toValue_plain sorted
  have same := sortKeysDeep_same definition.toValue_plain sorted
  exact ⟨json.toValue, reads _ _ (parseJson_stringify regular), same, jobDefinitionSchema_of_same plain same valid⟩

/-- Canonicalising whatever the schema reads a job from. -/
private theorem canonicaliseJobWithHash_of_read {job : JsValue} (read : jobDefinitionSchema job = some definition)
    (spelled : canonicalJsonStringify (normaliseJobDefinition definition).toValue = .ok text) :
    canonicaliseJobWithHash runtime job = .ok {
      definition := normaliseJobDefinition definition
      canonicalJson := text
      hash := js (runtime.crypto.sha256 (utf8 text)) } := by
  rw [canonicaliseJobWithHash, read]
  dsimp only
  rw [spelled]

/-- **Canonical JSON round-trips.** A job that the schema admits is canonicalised; parsing the
canonical text gives the normalised job; and canonicalising again, be it that job or what
`JSON.parse` gives, has the same text and the same hash. Normalising a text twice changes
nothing more. -/
theorem canonicaliseJobWithHash_roundTrips {job : JsValue} (reads : ReadsJson runtime)
    (valid : (jobDefinitionSchema job).isSome = true) :
    ∃ result, canonicaliseJobWithHash runtime job = .ok result ∧
      parseJobDefinition runtime result.canonicalJson = .ok result.definition ∧
      canonicaliseJobWithHash runtime result.definition.toValue = .ok result ∧
      (∃ value, runtime.parseJson result.canonicalJson = .ok value ∧ Same value result.definition.toValue ∧
        canonicaliseJobWithHash runtime value = .ok result) ∧
      ∀ input, normaliseText (normaliseText input) = normaliseText input := by
  obtain ⟨definition, read⟩ := Option.isSome_iff_exists.mp valid
  have admissible := normaliseJobDefinition_admissible (jobDefinitionSchema_admissible read)
  obtain ⟨text, spelled⟩ := canonicalJsonStringify_ok (normaliseJobDefinition definition).toValue_sorts
  obtain ⟨value, parsed, same, readAgain⟩ := parseJson_canonical reads admissible spelled
  have plain := (normaliseJobDefinition definition).toValue_plain
  have readOwn := jobDefinitionSchema_of_same plain (same_self plain) admissible
  have normal := normaliseJobDefinition_idempotent definition
  have again : ∀ {job}, jobDefinitionSchema job = some (normaliseJobDefinition definition) →
      canonicaliseJobWithHash runtime job = .ok {
        definition := normaliseJobDefinition definition
        canonicalJson := text
        hash := js (runtime.crypto.sha256 (utf8 text)) } := by
    intro job readJob
    have spelledAgain : canonicalJsonStringify
        (normaliseJobDefinition (normaliseJobDefinition definition)).toValue = .ok text := by rw [normal, spelled]
    rw [canonicaliseJobWithHash_of_read readJob spelledAgain, normal]
  refine ⟨_, canonicaliseJobWithHash_of_read read spelled, ?_, again readOwn, ⟨value, parsed, same, again readAgain⟩,
    normaliseText_idempotent⟩
  rw [parseJobDefinition, parsed]
  dsimp only
  rw [readAgain]

end RoundTrip

/-- A platform that reads JSON and nothing else. -/
def jsonRuntime : Runtime where
  crypto := sampleCrypto
  parseJson text := (parseJson text).elim (.error (js "Unexpected end of JSON input")) .ok
  jobSchemaMessage _ := js "Invalid input"

theorem jsonRuntime_reads : ReadsJson jsonRuntime := by
  intro text value parsed
  simp only [jsonRuntime, parsed, Option.elim_some]

/-- A job whose command was edited on Windows. -/
theorem canonicaliseJobWithHash_roundTrips_edited :
    let job := (sampleJob 1 [
      { sampleStep 2 StepAction.QuitWithSuccess 0 StepAction.QuitWithFailure 0 with
        command := js "SELECT 1; \r\nGO\r\n" },
      sampleStep 1 StepAction.GoToNextStep 0 StepAction.QuitWithFailure 0]).toValue
    ∃ result, canonicaliseJobWithHash jsonRuntime job = .ok result ∧
      parseJobDefinition jsonRuntime result.canonicalJson = .ok result.definition ∧
      canonicaliseJobWithHash jsonRuntime result.definition.toValue = .ok result ∧
      (∃ value, jsonRuntime.parseJson result.canonicalJson = .ok value ∧ Same value result.definition.toValue ∧
        canonicaliseJobWithHash jsonRuntime value = .ok result) ∧
      ∀ input, normaliseText (normaliseText input) = normaliseText input :=
  canonicaliseJobWithHash_roundTrips jsonRuntime_reads (by decide)

end RemoteSqlAgent
