import RemoteSqlAgent.JobFlow
import Mathlib.Logic.Relation

/-! The search for the steps that a job can arrive at, as the relation that the branches of
its steps make, and the steps that are left. -/
namespace RemoteSqlAgent
open Js FlowGraph

/-- A branch of the first step leads to the second. -/
def Leads (definition : JobDefinition) (first second : Int) : Prop :=
  ∃ step ∈ definition.steps, step.stepId = first ∧ ∃ succeeded, nextStepAfter definition step succeeded = some second

/-- One pass of the loop of `reachableSteps`, on its queue and what it has seen. -/
abbrev reachPass (definition : JobDefinition) : List Int × List Int → List Int × List Int := pass (jobFlow definition)

section Reaching
variable {definition : JobDefinition} {stepId : Int}

theorem jobFlow_next_iff (distinct : definition.stepIds.Nodup) {first second : Int} :
    (∃ succeeded, (jobFlow definition).next first succeeded = some second) ↔ Leads definition first second := by
  constructor
  · rintro ⟨succeeded, exit⟩
    obtain ⟨step, found, next⟩ := Option.bind_eq_some_iff.mp exit
    obtain ⟨member, same⟩ := (stepById_eq_some distinct).mp found
    exact ⟨step, member, same, succeeded, next⟩
  · rintro ⟨step, member, rfl, succeeded, next⟩
    exact ⟨succeeded, (jobFlow_next distinct member succeeded).trans next⟩

/-- A job arrives at the steps that its branches lead to, one after the other. -/
theorem jobFlow_reaches_iff (distinct : definition.stepIds.Nodup) :
    (jobFlow definition).Reaches stepId ↔
      stepId ∈ definition.stepIds ∧ Relation.ReflTransGen (Leads definition) definition.startStepId stepId := by
  constructor
  · intro reached
    refine ⟨jobFlow_present.mp reached.present, ?_⟩
    induction reached with
    | start => exact .refl
    | next _ exit _ ih => exact ih.tail ((jobFlow_next_iff distinct).mp ⟨_, exit⟩)
  · rintro ⟨there, leads⟩
    induction leads with
    | refl => exact .start (jobFlow_present.mpr there)
    | tail _ last ih =>
      obtain ⟨succeeded, exit⟩ := (jobFlow_next_iff distinct).mpr last
      obtain ⟨step, member, same, -⟩ := last
      exact (ih (same ▸ List.mem_map_of_mem member)).next exit (jobFlow_present.mpr there)

theorem unreachableSteps_perm : (unreachableSteps definition).Perm
    (definition.steps.filter fun step => step.stepId ∉ reachableSteps definition) := sortBy_perm _ _

theorem unreachableSteps_ascending (distinct : definition.stepIds.Nodup) :
    (unreachableSteps definition).Pairwise fun first second => first.stepId < second.stepId := by
  have sorted : (unreachableSteps definition).Pairwise fun first second => first.stepId ≤ second.stepId :=
    (sortBy_sorted (consistent_byNumber JobStep.stepId) _).imp fun le => by omega
  have left : ((definition.steps.filter fun step => step.stepId ∉ reachableSteps definition).map (·.stepId)).Nodup :=
    distinct.sublist (List.filter_sublist.map _)
  have nodup : ((unreachableSteps definition).map (·.stepId)).Nodup :=
    (unreachableSteps_perm.map _).nodup_iff.mpr left
  have apart : (unreachableSteps definition).Pairwise fun first second => first.stepId ≠ second.stepId :=
    List.pairwise_map.mp nodup
  exact (sorted.and apart).imp fun ⟨le, ne⟩ => lt_of_le_of_ne le ne

/-- **The loop ends, and has seen the steps that branches lead to from the start step**, at
one or more removes. The steps that are left are listed by their ids. -/
theorem reachableSteps_exact (distinct : definition.stepIds.Nodup) :
    (reachPass definition)^[2 * definition.steps.length + 1] ([definition.startStepId], []) =
        ([], reachableSteps definition) ∧
      (∀ stepId, stepId ∈ reachableSteps definition ↔
        stepId ∈ definition.stepIds ∧ Relation.ReflTransGen (Leads definition) definition.startStepId stepId) ∧
      (∀ step, step ∈ unreachableSteps definition ↔
        step ∈ definition.steps ∧ ¬ Relation.ReflTransGen (Leads definition) definition.startStepId step.stepId) ∧
      (unreachableSteps definition).Pairwise fun first second => first.stepId < second.stepId := by
  have exact_ : ∀ stepId, stepId ∈ reachableSteps definition ↔
      stepId ∈ definition.stepIds ∧ Relation.ReflTransGen (Leads definition) definition.startStepId stepId :=
    fun stepId => mem_reachableSteps.trans (jobFlow_reaches_iff distinct)
  refine ⟨?_, exact_, fun step => ?_, unreachableSteps_ascending distinct⟩
  · have ends : (pass (jobFlow definition))^[2 * definition.stepIds.length + 1] ([definition.startStepId], []) =
        ([], reachableSteps definition) := search_ends fun stepId present => jobFlow_present.mp present
    rwa [JobDefinition.stepIds, List.length_map] at ends
  · rw [unreachableSteps_perm.mem_iff, List.mem_filter, decide_eq_true_eq, exact_]
    constructor
    · rintro ⟨member, left⟩
      exact ⟨member, fun leads => left ⟨List.mem_map_of_mem member, leads⟩⟩
    · rintro ⟨member, left⟩
      exact ⟨member, fun reached => left reached.2⟩

end Reaching

/-- A loop between two steps, one of which also leads to no step, and a step that nothing leads to. -/
def loopingJob : JobDefinition := sampleJob 2 [
  sampleStep 2 StepAction.GoToStep 7 StepAction.GoToStep 40,
  sampleStep 7 StepAction.GoToStep 2 StepAction.GoToStep 7,
  sampleStep 5 StepAction.QuitWithSuccess 0 StepAction.QuitWithFailure 0]

theorem reachableSteps_exact_looping :
    (reachPass loopingJob)^[7] ([2], []) = ([], [7, 2]) ∧
      (unreachableSteps loopingJob).map (·.stepId) = [5] ∧
      ∀ stepId, stepId ∈ reachableSteps loopingJob ↔
        stepId ∈ [2, 7, 5] ∧ Relation.ReflTransGen (Leads loopingJob) 2 stepId :=
  ⟨by decide, by decide, (reachableSteps_exact (by decide : loopingJob.stepIds.Nodup)).2.1⟩

end RemoteSqlAgent
