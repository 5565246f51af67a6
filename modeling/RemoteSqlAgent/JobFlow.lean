import RemoteSqlAgent.JobDefinition
import RemoteSqlAgent.JsArray
import RemoteSqlAgent.FlowGraph

/-! Reading a job's control flow: what runs next, and what can be reached at
all. The job is a flow graph over its step ids, and the search for reachable
steps is exact on it. -/
namespace RemoteSqlAgent
open Js FlowGraph

/-! ## What runs next -/

/-- The action a branch takes; the success branch is `true`. -/
def JobStep.action (step : JobStep) (succeeded : Bool) : Int :=
  if succeeded then step.onSuccessAction else step.onFailAction

/-- The step id a branch carries, which only `GoToStep` reads. -/
def JobStep.target (step : JobStep) (succeeded : Bool) : Int :=
  if succeeded then step.onSuccessStepId else step.onFailStepId

/-- The lowest step id above this one. -/
def stepIdAfter (definition : JobDefinition) (stepId : Int) : Option Int :=
  ((sortBy (fun a b : JobStep => a.stepId - b.stepId)
    (definition.steps.filter fun s => s.stepId > stepId)).head?).map (·.stepId)

/-- The step Agent moves to after `step` completes, or `none` if the job ends. -/
def nextStepAfter (definition : JobDefinition) (step : JobStep) (succeeded : Bool) : Option Int :=
  if step.action succeeded = StepAction.GoToStep then
    -- `target || null`
    if step.target succeeded = 0 then none else some (step.target succeeded)
  else if step.action succeeded = StepAction.GoToNextStep then stepIdAfter definition step.stepId
  else none

namespace RunStatus

/-! msdb `sysjobhistory.run_status`. -/

abbrev Failed : Int := 0
abbrev Succeeded : Int := 1
abbrev Retry : Int := 2
abbrev Cancelled : Int := 3

end RunStatus

structure CompletedStep where
  stepId : Int
  runStatus : Int

/-- Which step is running, given the steps of the run that have completed. -/
def inferRunningStep (definition : JobDefinition) (completed : List CompletedStep) : Option Int :=
  match completed.getLast? with
  | none => some definition.startStepId
  | some last =>
    match definition.steps.find? fun s => decide (s.stepId = last.stepId) with
    | none => none
    | some step =>
      if last.runStatus = RunStatus.Retry then some step.stepId
      else if last.runStatus = RunStatus.Cancelled then none
      else nextStepAfter definition step (last.runStatus = RunStatus.Succeeded)

/-! ## What can be reached -/

/-- The step a map from step ids to steps holds. -/
def stepById (definition : JobDefinition) (stepId : Int) : Option JobStep :=
  mapGet (·.stepId) definition.steps stepId

/-- A job as a flow graph over step ids. -/
def jobFlow (definition : JobDefinition) : Flow Int where
  start := definition.startStepId
  present stepId := (stepById definition stepId).isSome
  next stepId succeeded := (stepById definition stepId).bind (nextStepAfter definition · succeeded)

/-- Every step the job can arrive at. Each pass of the loop pops one id, and a
step pushes at most two, once. -/
def reachableSteps (definition : JobDefinition) : List Int :=
  search (jobFlow definition) (2 * definition.stepIds.length + 1) [definition.startStepId] []

/-- Steps the job can never arrive at, in step order. -/
def unreachableSteps (definition : JobDefinition) : List JobStep :=
  sortBy (fun a b : JobStep => a.stepId - b.stepId)
    (definition.steps.filter fun s => s.stepId ∉ reachableSteps definition)

def isStepDisabled (definition : JobDefinition) (stepId : Int) : Bool :=
  stepId ∉ reachableSteps definition

theorem jobFlow_present {definition : JobDefinition} {stepId : Int} :
    (jobFlow definition).present stepId = true ↔ stepId ∈ definition.stepIds := by
  simp only [jobFlow, stepById, mapGet_isSome, JobDefinition.stepIds, List.mem_map]

/-- The search for reachable steps finds exactly the steps that runs arrive at. -/
theorem mem_reachableSteps {definition : JobDefinition} {stepId : Int} :
    stepId ∈ reachableSteps definition ↔ (jobFlow definition).Reaches stepId :=
  mem_search_iff fun _ present => jobFlow_present.mp present

/-- With distinct ids, a step of the job is the one its id names. -/
theorem stepById_eq_some {definition : JobDefinition} (distinct : definition.stepIds.Nodup)
    {stepId : Int} {step : JobStep} :
    stepById definition stepId = some step ↔ step ∈ definition.steps ∧ step.stepId = stepId :=
  mapGet_eq_some distinct

theorem jobFlow_next {definition : JobDefinition} (distinct : definition.stepIds.Nodup)
    {step : JobStep} (member : step ∈ definition.steps) (succeeded : Bool) :
    (jobFlow definition).next step.stepId succeeded = nextStepAfter definition step succeeded := by
  have found : stepById definition step.stepId = some step :=
    (stepById_eq_some distinct).mpr ⟨member, rfl⟩
  simp only [jobFlow, found, Option.bind_some]

theorem jobFlow_next_absent {definition : JobDefinition} {stepId : Int}
    (absent : stepId ∉ definition.stepIds) (succeeded : Bool) :
    (jobFlow definition).next stepId succeeded = none := by
  have missing : stepById definition stepId = none := by
    refine mapGet_eq_none.mpr fun step member same => absent ?_
    exact same ▸ List.mem_map_of_mem member
  simp only [jobFlow, missing, Option.bind_none]

/-! ## Falling through depends on the ids alone -/

theorem stepIdAfter_eq (definition : JobDefinition) (stepId : Int) :
    stepIdAfter definition stepId =
      ((definition.stepIds.filter (· > stepId)).insertionSort (· ≤ ·)).head? := by
  have ordered := List.map_insertionSort (fun a b : JobStep => a.stepId - b.stepId ≤ 0)
    (fun a b : Int => a ≤ b) (·.stepId) (definition.steps.filter fun s => s.stepId > stepId)
    (fun a _ b _ => by omega)
  rw [stepIdAfter, ← List.head?_map, sortBy, ordered, JobDefinition.stepIds, List.filter_map]
  rfl

theorem stepIdAfter_congr {first second : JobDefinition} (same : first.stepIds = second.stepIds)
    (stepId : Int) : stepIdAfter first stepId = stepIdAfter second stepId := by
  rw [stepIdAfter_eq, stepIdAfter_eq, same]

/-- What follows a step depends on the job only through its step ids. -/
theorem nextStepAfter_congr {first second : JobDefinition} (same : first.stepIds = second.stepIds)
    (step : JobStep) (succeeded : Bool) :
    nextStepAfter first step succeeded = nextStepAfter second step succeeded := by
  simp only [nextStepAfter, stepIdAfter_congr same]

/-- The next id is the least of those above. -/
theorem stepIdAfter_eq_some {definition : JobDefinition} {stepId later : Int} :
    stepIdAfter definition stepId = some later ↔
      later ∈ definition.stepIds ∧ stepId < later ∧
        ∀ other ∈ definition.stepIds, stepId < other → later ≤ other := by
  rw [stepIdAfter_eq]
  have sorted := List.pairwise_insertionSort (· ≤ ·) (definition.stepIds.filter (· > stepId))
  have members : ∀ id, id ∈ (definition.stepIds.filter (· > stepId)).insertionSort (· ≤ ·) ↔
      id ∈ definition.stepIds ∧ stepId < id := by
    intro id
    simp [List.mem_insertionSort]
  cases order : (definition.stepIds.filter (· > stepId)).insertionSort (· ≤ ·) with
  | nil =>
    rw [order] at members
    simp only [List.head?_nil, reduceCtorEq, false_iff, not_and]
    intro member above
    exact absurd ((members later).mpr ⟨member, above⟩) (by simp)
  | cons least rest =>
    rw [order] at members sorted
    have leastIs := (members least).mp (by simp)
    have below := (List.pairwise_cons.mp sorted).1
    have minimal : ∀ other ∈ definition.stepIds, stepId < other → least ≤ other := by
      intro other member above
      rcases List.mem_cons.mp ((members other).mpr ⟨member, above⟩) with rfl | member
      · exact le_refl _
      · exact below other member
    simp only [List.head?_cons, Option.some.injEq]
    constructor
    · rintro rfl
      exact ⟨leastIs.1, leastIs.2, minimal⟩
    · rintro ⟨member, above, lowest⟩
      exact le_antisymm (minimal later member above) (lowest least leastIs.1 leastIs.2)

theorem stepIdAfter_eq_none {definition : JobDefinition} {stepId : Int} :
    stepIdAfter definition stepId = none ↔ ∀ other ∈ definition.stepIds, other ≤ stepId := by
  rw [stepIdAfter_eq, List.head?_eq_none_iff]
  constructor
  · intro empty other member
    by_contra above
    have there : other ∈ (definition.stepIds.filter (· > stepId)).insertionSort (· ≤ ·) := by
      rw [List.mem_insertionSort]
      simpa [member] using above
    rw [empty] at there
    cases there
  · intro none_
    refine List.eq_nil_iff_forall_not_mem.mpr fun other member => ?_
    rw [List.mem_insertionSort, List.mem_filter, decide_eq_true_eq] at member
    exact absurd member.2 (not_lt.mpr (none_ other member.1))

end RemoteSqlAgent
