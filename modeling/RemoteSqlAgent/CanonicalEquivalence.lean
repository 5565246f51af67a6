import RemoteSqlAgent.Canonical

/-! The canonical form of a job is exactly the intended equivalence: jobs share
it if and only if they differ in the order of their steps, schedules and target
servers alone, once their text bodies are normalised. -/
namespace RemoteSqlAgent
open Js

/-! ## Plain values of a job -/

private theorem nullable_plain (value : Option JsString) : Plain (nullable value) := by
  cases value with
  | none => exact .null
  | some text => exact .string text

@[simp] private theorem same_nullable {a b : Option JsString} :
    Same (nullable a) (nullable b) ↔ a = b := by
  cases a <;> cases b <;> simp only [nullable, Option.elim_none, Option.elim_some, same_string,
    Option.some.injEq, reduceCtorEq, iff_false, iff_true]
  · exact .null
  · intro same
    cases same
  · intro same
    cases same

theorem StepSubsystem.text_injective : Function.Injective StepSubsystem.text := by
  intro a b same
  cases a <;> cases b <;> first | rfl | exact absurd same (by decide)

@[simp] theorem isDefined_nullable (value : Option JsString) : (nullable value).isDefined = true := by
  cases value <;> rfl

section Records

/-! The records of a job name each property once, in one order. -/

private theorem plain_record {fields : List (JsString × JsValue)}
    (names : (fields.map Prod.fst).Nodup ∧ js "__proto__" ∉ fields.map Prod.fst)
    (each : ∀ field ∈ fields, Plain field.2) : Plain (.object fields) :=
  .object names.1 names.2 each

theorem JobStep.toValue_plain (step : JobStep) : Plain step.toValue := by
  refine plain_record (by simp only [List.map_cons, List.map_nil]; decide) ?_
  simp only [List.forall_mem_cons, List.not_mem_nil, false_imp_iff, implies_true, nullable_plain,
    Plain.number, Plain.string, and_self]

theorem ScheduleDefinition.toValue_plain (schedule : ScheduleDefinition) : Plain schedule.toValue := by
  refine plain_record (by simp only [List.map_cons, List.map_nil]; decide) ?_
  simp only [List.forall_mem_cons, List.not_mem_nil, false_imp_iff, implies_true, Plain.number,
    Plain.string, Plain.bool, and_self]

theorem JobNotifications.toValue_plain (notifications : JobNotifications) :
    Plain notifications.toValue := by
  refine plain_record (by simp only [List.map_cons, List.map_nil]; decide) ?_
  simp only [List.forall_mem_cons, List.not_mem_nil, false_imp_iff, implies_true, nullable_plain,
    Plain.number, and_self]

theorem JobDefinition.toValue_plain (definition : JobDefinition) : Plain definition.toValue := by
  refine plain_record (by simp only [List.map_cons, List.map_nil]; decide) ?_
  have steps : Plain (.array (definition.steps.map JobStep.toValue)) :=
    .array (List.forall_mem_map.mpr fun step _ => step.toValue_plain)
  have schedules : Plain (.array (definition.schedules.map ScheduleDefinition.toValue)) :=
    .array (List.forall_mem_map.mpr fun schedule _ => schedule.toValue_plain)
  have servers : Plain (.array (definition.targetServers.map .string)) :=
    .array (List.forall_mem_map.mpr fun server _ => .string server)
  simp only [List.forall_mem_cons, List.not_mem_nil, false_imp_iff, implies_true, nullable_plain,
    Plain.number, Plain.string, Plain.bool, definition.notifications.toValue_plain, steps, schedules,
    servers, and_self]

theorem JobStep.eq_of_same {first second : JobStep} (same : Same first.toValue second.toValue) :
    first = second := by
  have values := same.values_of_names rfl (by simp) (by simp)
  simp only [List.map_cons, List.map_nil, List.forall₂_cons, same_number, same_string, same_nullable,
    StepSubsystem.text_injective.eq_iff] at values
  cases first
  cases second
  simp_all

theorem ScheduleDefinition.eq_of_same {first second : ScheduleDefinition}
    (same : Same first.toValue second.toValue) : first = second := by
  have values := same.values_of_names rfl (by simp) (by simp)
  simp only [List.map_cons, List.map_nil, List.forall₂_cons, same_number, same_string, same_bool] at values
  cases first
  cases second
  simp_all

theorem JobNotifications.eq_of_same {first second : JobNotifications}
    (same : Same first.toValue second.toValue) : first = second := by
  have values := same.values_of_names rfl (by simp) (by simp)
  simp only [List.map_cons, List.map_nil, List.forall₂_cons, same_number, same_nullable] at values
  cases first
  cases second
  simp_all

private theorem eq_of_forall₂_map {α : Type} {toValue : α → JsValue}
    (injective : ∀ a b, Same (toValue a) (toValue b) → a = b) {left right : List α}
    (same : List.Forall₂ Same (left.map toValue) (right.map toValue)) : left = right := by
  rw [List.forall₂_map_left_iff, List.forall₂_map_right_iff] at same
  exact List.forall₂_eq_eq_eq ▸ same.imp injective

theorem JobDefinition.eq_of_same {first second : JobDefinition}
    (same : Same first.toValue second.toValue) : first = second := by
  have values := same.values_of_names rfl (by simp [JobNotifications.toValue])
    (by simp [JobNotifications.toValue])
  simp only [List.map_cons, List.map_nil, List.forall₂_cons, same_number, same_string, same_bool,
    same_nullable, same_array] at values
  obtain ⟨-, name, description, enabled, category, owner, start, notifications, steps, schedules, servers, -⟩ :=
    values
  have notifications := JobNotifications.eq_of_same notifications
  have steps := eq_of_forall₂_map (fun _ _ => JobStep.eq_of_same) steps
  have schedules := eq_of_forall₂_map (fun _ _ => ScheduleDefinition.eq_of_same) schedules
  have servers := eq_of_forall₂_map (fun _ _ => same_string.mp) servers
  cases first
  cases second
  simp_all

private theorem nullable_sorts (value : Option JsString) : Sorts (nullable value) := by
  cases value with
  | none => exact ⟨.null, rfl⟩
  | some text => exact ⟨.string text, rfl⟩

private theorem number_sorts (n : Int) : Sorts (.number n) := ⟨.number n, rfl⟩
private theorem string_sorts (text : JsString) : Sorts (.string text) := ⟨.string text, rfl⟩
private theorem bool_sorts (b : Bool) : Sorts (.bool b) := ⟨.bool b, rfl⟩

theorem JobStep.toValue_sorts (step : JobStep) : Sorts step.toValue := by
  apply sorts_object
  simp [nullable_sorts, number_sorts, string_sorts]

theorem ScheduleDefinition.toValue_sorts (schedule : ScheduleDefinition) : Sorts schedule.toValue := by
  apply sorts_object
  simp [bool_sorts, number_sorts, string_sorts]

theorem JobNotifications.toValue_sorts (notifications : JobNotifications) :
    Sorts notifications.toValue := by
  apply sorts_object
  simp [nullable_sorts, number_sorts]

/-- Serialising a job never throws. -/
theorem JobDefinition.toValue_sorts (definition : JobDefinition) : Sorts definition.toValue := by
  have steps : Sorts (.array (definition.steps.map JobStep.toValue)) :=
    sorts_array (List.forall_mem_map.mpr fun step _ => step.toValue_sorts)
  have schedules : Sorts (.array (definition.schedules.map ScheduleDefinition.toValue)) :=
    sorts_array (List.forall_mem_map.mpr fun schedule _ => schedule.toValue_sorts)
  have servers : Sorts (.array (definition.targetServers.map .string)) :=
    sorts_array (List.forall_mem_map.mpr fun server _ => string_sorts server)
  apply sorts_object
  simp [nullable_sorts, number_sorts, string_sorts, bool_sorts, definition.notifications.toValue_sorts,
    steps, schedules, servers]

end Records

/-! ## Canonical text -/

theorem canonicalJsonStringify_ok {value : JsValue} (sorts : Sorts value) :
    ∃ text, canonicalJsonStringify value = .ok text := by
  obtain ⟨json, ran⟩ := sorts
  exact ⟨stringify json, canonicalJsonStringify_eq_ok.mpr ⟨json, ran, rfl⟩⟩

theorem canonicalJson_injective {first second : JobDefinition}
    (same : canonicalJsonStringify first.toValue = canonicalJsonStringify second.toValue) :
    first = second := by
  obtain ⟨text, spelled⟩ := canonicalJsonStringify_ok second.toValue_sorts
  exact JobDefinition.eq_of_same (same_of_canonicalJsonStringify first.toValue_plain second.toValue_plain
    (same.trans spelled) spelled)

/-! ## The order of schedules -/

/-- The text that breaks ties between schedules of one name. -/
def scheduleText (schedule : ScheduleDefinition) : JsString :=
  (canonicalJsonStringify schedule.toValue).toOption.getD []

theorem canonicalJsonStringify_schedule (schedule : ScheduleDefinition) :
    canonicalJsonStringify schedule.toValue = .ok (scheduleText schedule) := by
  obtain ⟨text, spelled⟩ := canonicalJsonStringify_ok schedule.toValue_sorts
  rw [scheduleText, spelled]
  rfl

theorem scheduleText_injective : Function.Injective scheduleText := by
  intro first second same
  refine ScheduleDefinition.eq_of_same (same_of_canonicalJsonStringify first.toValue_plain
    second.toValue_plain (canonicalJsonStringify_schedule first) ?_)
  rw [canonicalJsonStringify_schedule, same]

theorem compareSchedules_le {a b : ScheduleDefinition} : compareSchedules a b ≤ 0 ↔
    a.name < b.name ∨ (a.name = b.name ∧ scheduleText a ≤ scheduleText b) := by
  unfold compareSchedules
  by_cases named : a.name = b.name
  · simp only [named, ne_eq, not_true_eq_false, ↓reduceIte, lt_irrefl, true_and, false_or,
      canonicalJsonStringify_schedule, compareDefault_le]
  · simp only [named, ne_eq, not_false_eq_true, ↓reduceIte, false_and, or_false]
    split <;> simp_all

theorem consistent_schedules : Consistent compareSchedules where
  total a b := by
    rw [compareSchedules_le, compareSchedules_le]
    rcases lt_trichotomy a.name b.name with less | same | greater
    · exact .inl (.inl less)
    · rcases le_total (scheduleText a) (scheduleText b) with le | ge
      · exact .inl (.inr ⟨same, le⟩)
      · exact .inr (.inr ⟨same.symm, ge⟩)
    · exact .inr (.inl greater)
  trans a b c := by
    simp only [compareSchedules_le]
    rintro (less | ⟨same, le⟩) (next | ⟨sameNext, leNext⟩)
    · exact .inl (less.trans next)
    · exact .inl (sameNext ▸ less)
    · exact .inl (same ▸ next)
    · exact .inr ⟨same.trans sameNext, le.trans leNext⟩

/-- Only a schedule and itself compare as equal. -/
theorem compareSchedules_separates {a b : ScheduleDefinition} (le : compareSchedules a b ≤ 0)
    (ge : compareSchedules b a ≤ 0) : a = b := by
  rw [compareSchedules_le] at le ge
  rcases le with less | ⟨same, le⟩
  · rcases ge with greater | ⟨same, -⟩
    · exact absurd less greater.asymm
    · exact absurd less (same ▸ lt_irrefl _)
  · rcases ge with greater | ⟨-, ge⟩
    · exact absurd greater (same ▸ lt_irrefl _)
    · exact scheduleText_injective (le_antisymm le ge)

/-! ## The intended equivalence -/

/-- A step with its command normalised. -/
def JobStep.normalised (step : JobStep) : JobStep := { step with command := normaliseText step.command }

/-- Equal up to the order of steps, schedules and target servers, and up to what
normalising the description and the commands removes. -/
structure Equivalent (first second : JobDefinition) : Prop where
  header : { first with description := none, steps := [], schedules := [], targetServers := [] } =
    { second with description := none, steps := [], schedules := [], targetServers := [] }
  description : first.description.map normaliseText = second.description.map normaliseText
  steps : (first.steps.map JobStep.normalised).Perm (second.steps.map JobStep.normalised)
  schedules : first.schedules.Perm second.schedules
  targetServers : first.targetServers.Perm second.targetServers

/-- Normalising commands does not disturb the order of steps. -/
private theorem normalised_steps (definition : JobDefinition) :
    (normaliseJobDefinition definition).steps =
      sortBy (fun a b : JobStep => a.stepId - b.stepId) (definition.steps.map JobStep.normalised) := by
  change (sortBy _ definition.steps).map JobStep.normalised = _
  exact List.map_insertionSort _ _ JobStep.normalised definition.steps fun _ _ _ _ => Iff.rfl

/-- Normal forms are representatives of the equivalence. -/
theorem normaliseJobDefinition_eq_iff {first second : JobDefinition} (distinct : first.stepIds.Nodup) :
    normaliseJobDefinition first = normaliseJobDefinition second ↔ Equivalent first second := by
  constructor
  · intro same
    have steps := congrArg JobDefinition.steps same
    have schedules := congrArg JobDefinition.schedules same
    have servers := congrArg JobDefinition.targetServers same
    rw [normalised_steps, normalised_steps] at steps
    refine ⟨?_, congrArg JobDefinition.description same, ?_, ?_, ?_⟩
    · exact congrArg (fun definition : JobDefinition => { definition with
        description := none, steps := [], schedules := [], targetServers := [] }) same
    · exact perm_of_sortBy_eq steps
    · exact perm_of_sortBy_eq schedules
    · exact perm_of_sortBy_eq servers
  · intro same
    have steps : (normaliseJobDefinition first).steps = (normaliseJobDefinition second).steps := by
      have ids : ((first.steps.map JobStep.normalised).map (·.stepId)).Nodup := by
        rw [List.map_map]
        exact distinct
      rw [normalised_steps, normalised_steps]
      refine sortBy_eq_of_perm (consistent_byNumber _) ?_ same.steps
      intro a memberA b memberB le ge
      exact List.inj_on_of_nodup_map ids memberA memberB (by omega)
    have schedules : (normaliseJobDefinition first).schedules = (normaliseJobDefinition second).schedules :=
      sortBy_eq_of_perm consistent_schedules (fun _ _ _ _ => compareSchedules_separates) same.schedules
    have servers :
        (normaliseJobDefinition first).targetServers = (normaliseJobDefinition second).targetServers :=
      sortBy_eq_of_perm consistent_default
        (fun _ _ _ _ le ge => le_antisymm (compareDefault_le.mp le) (compareDefault_le.mp ge))
        same.targetServers
    have description : (normaliseJobDefinition first).description =
        (normaliseJobDefinition second).description := same.description
    have header := same.header
    simp only [JobDefinition.mk.injEq, and_true, true_and] at header
    obtain ⟨name, enabled, category, owner, start, notifications⟩ := header
    exact (JobDefinition.mk.injEq ..).mpr ⟨name, description, enabled, category, owner, start,
      notifications, steps, schedules, servers⟩

/-- The commands of a normal form are normalised. -/
theorem normaliseJobDefinition_commands (definition : JobDefinition) :
    (normaliseJobDefinition definition).steps.map JobStep.normalised =
      (normaliseJobDefinition definition).steps := by
  have twice : JobStep.normalised ∘ JobStep.normalised = JobStep.normalised := by
    funext step
    simp only [Function.comp_apply, JobStep.normalised, normaliseText_idempotent]
  change ((sortBy _ definition.steps).map JobStep.normalised).map JobStep.normalised =
    (sortBy _ definition.steps).map JobStep.normalised
  rw [List.map_map, twice]

/-- A normal form is its own normal form. -/
theorem normaliseJobDefinition_idempotent (definition : JobDefinition) :
    normaliseJobDefinition (normaliseJobDefinition definition) = normaliseJobDefinition definition := by
  have twice : normaliseText ∘ normaliseText = normaliseText := by
    funext text
    rw [Function.comp_apply, normaliseText_idempotent]
  have commands := normaliseJobDefinition_commands definition
  have steps : (normaliseJobDefinition (normaliseJobDefinition definition)).steps =
      (normaliseJobDefinition definition).steps := by
    have sorted := sortBy_sorted (consistent_byNumber JobStep.stepId)
      (definition.steps.map JobStep.normalised)
    rw [normalised_steps, commands, normalised_steps, sortBy_eq_self sorted]
  have schedules : sortBy compareSchedules (sortBy compareSchedules definition.schedules) =
      sortBy compareSchedules definition.schedules :=
    sortBy_eq_self (sortBy_sorted consistent_schedules definition.schedules)
  have servers : sortBy compareDefault (sortBy compareDefault definition.targetServers) =
      sortBy compareDefault definition.targetServers :=
    sortBy_eq_self (sortBy_sorted consistent_default definition.targetServers)
  have description : (definition.description.map normaliseText).map normaliseText =
      definition.description.map normaliseText := by
    rw [Option.map_map, twice]
  exact (JobDefinition.mk.injEq ..).mpr ⟨rfl, description, rfl, rfl, rfl, rfl, rfl, steps, schedules, servers⟩

/-- Canonical texts agree exactly if normal forms do. -/
theorem canonicaliseJob_normal {a b : JsValue} {first second : JobDefinition}
    (readsFirst : jobDefinitionSchema a = some first) (readsSecond : jobDefinitionSchema b = some second) :
    canonicaliseJob a = canonicaliseJob b ↔
      normaliseJobDefinition first = normaliseJobDefinition second := by
  obtain ⟨left, textLeft⟩ :=
    canonicalJsonStringify_ok (normaliseJobDefinition first).toValue_sorts
  obtain ⟨right, textRight⟩ :=
    canonicalJsonStringify_ok (normaliseJobDefinition second).toValue_sorts
  simp only [canonicaliseJob, readsFirst, readsSecond, textLeft, textRight, Except.ok.injEq]
  constructor
  · intro same
    exact canonicalJson_injective (by rw [textLeft, textRight, same])
  · intro same
    rw [same, textRight] at textLeft
    exact (Except.ok.inj textLeft).symm

/-- **The canonical form is exactly the intended equivalence** on what the schema
reads from two values. -/
theorem canonicaliseJob_eq_iff {a b : JsValue} {first second : JobDefinition}
    (readsFirst : jobDefinitionSchema a = some first) (readsSecond : jobDefinitionSchema b = some second)
    (distinct : first.stepIds.Nodup) :
    canonicaliseJob a = canonicaliseJob b ↔ Equivalent first second :=
  (canonicaliseJob_normal readsFirst readsSecond).trans (normaliseJobDefinition_eq_iff distinct)

/-- Steps read in another order, and a command that was edited on Windows. -/
theorem canonicaliseJob_eq_iff_reordered :
    let first := sampleJob 1 [
      sampleStep 1 StepAction.GoToNextStep 0 StepAction.QuitWithFailure 0,
      { sampleStep 2 StepAction.QuitWithSuccess 0 StepAction.QuitWithFailure 0 with
        command := js "SELECT 1;\nGO" }]
    let second := sampleJob 1 [
      { sampleStep 2 StepAction.QuitWithSuccess 0 StepAction.QuitWithFailure 0 with
        command := js "SELECT 1; \r\nGO\r\n" },
      sampleStep 1 StepAction.GoToNextStep 0 StepAction.QuitWithFailure 0]
    canonicaliseJob first.toValue = canonicaliseJob second.toValue ↔ Equivalent first second :=
  canonicaliseJob_eq_iff (by decide) (by decide) (by decide)

end RemoteSqlAgent
