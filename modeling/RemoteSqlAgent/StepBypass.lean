import RemoteSqlAgent.JobEdit

/-! Switching a step off routes the job around it: whatever came in goes where
the step would have gone on success. The edited job runs as the original does
with every visit of that step treated as a success and then erased. -/
namespace RemoteSqlAgent
open Js FlowGraph

variable {definition : JobDefinition} {stepId : Int}

/-- `disableStep` leaves the job alone: there is no such step, or none to run
without it. -/
def DisableRefuses (definition : JobDefinition) (stepId : Int) : Prop :=
  stepId ∉ definition.stepIds ∨ definition.steps.length = 1 ∨
    (definition.startStepId = stepId ∧ (jobFlow definition).next stepId true = none)

instance (definition : JobDefinition) (stepId : Int) : Decidable (DisableRefuses definition stepId) :=
  instDecidableOr

/-- The step an id names is the one `find` returns. -/
theorem find_step (distinct : definition.stepIds.Nodup) {target : JobStep}
    (member : target ∈ definition.steps) :
    definition.steps.find? (fun s => decide (s.stepId = target.stepId)) = some target :=
  (find_eq_some distinct).mpr ⟨member, rfl⟩

theorem find_step_none (absent : stepId ∉ definition.stepIds) :
    definition.steps.find? (fun s => decide (s.stepId = stepId)) = none := by
  refine List.find?_eq_none.mpr fun s member same => absent ?_
  exact of_decide_eq_true same ▸ List.mem_map_of_mem member

theorem disableStep_refused (distinct : definition.stepIds.Nodup)
    (refused : DisableRefuses definition stepId) :
    (disableStep definition stepId).definition = definition := by
  unfold disableStep
  by_cases there : stepId ∈ definition.stepIds
  · obtain ⟨target, member, rfl⟩ := List.mem_map.mp there
    rw [DisableRefuses, jobFlow_next distinct member] at refused
    rw [find_step distinct member]
    rcases refused.resolve_left (not_not_intro there) with only | ⟨starts, ends⟩
    · simp only [only, ↓reduceIte]
    · simp only [starts, ends, ↓reduceIte]
      split <;> rfl
  · rw [find_step_none there]

/-! ## One step of the edited job -/

/-- The action and target a diverted branch gets. -/
def diverted (bypass : Option Int) (succeeded : Bool) : Int × Int :=
  match bypass with
  | none => (if succeeded then StepAction.QuitWithSuccess else StepAction.QuitWithFailure, 0)
  | some stepId => (StepAction.GoToStep, stepId)

theorem divert_eq (bypass : Option Int) (step : JobStep) (succeeded : Bool) :
    divert bypass step succeeded =
      step.withBranch succeeded (diverted bypass succeeded).1 (diverted bypass succeeded).2 := by
  cases bypass <;> rfl

section Diverting
variable {target s : JobStep} {bypass : Option Int}

private theorem disableInStep_other (other : s.stepId ≠ target.stepId) :
    (disableInStep definition target bypass s).1 =
      let step := if arrivesHere definition target.stepId s true then divert bypass s true else s
      if arrivesHere definition target.stepId s false then divert bypass step false else step := by
  simp only [disableInStep, other, ↓reduceIte, List.foldl_cons, List.foldl_nil]
  split <;> split <;> rfl

private theorem disableInStep_warnings (other : s.stepId ≠ target.stepId) :
    (disableInStep definition target bypass s).2 =
      (if arrivesHere definition target.stepId s true then divertWarning target s true else []) ++
        if arrivesHere definition target.stepId s false then divertWarning target s false else [] := by
  simp only [disableInStep, other, ↓reduceIte, List.foldl_cons, List.foldl_nil]
  split <;> split <;> simp

theorem disableInStep_self (same : s.stepId = target.stepId) :
    (disableInStep definition target bypass s).1 = s := by
  rw [disableInStep, if_pos same]

/-- Nothing but branches is edited. -/
theorem disableInStep_frame : (disableInStep definition target bypass s).1.stepId = s.stepId ∧
    (disableInStep definition target bypass s).1.content = s.content := by
  by_cases other : s.stepId = target.stepId
  · rw [disableInStep_self other]
    exact ⟨rfl, rfl⟩
  · rw [disableInStep_other other]
    dsimp only
    split_ifs <;> simp [divert_eq]

/-- The branches that arrive at the disabled step are diverted, and no others. -/
theorem disableInStep_branch (other : s.stepId ≠ target.stepId) (succeeded : Bool) :
    ((disableInStep definition target bypass s).1.action succeeded,
      (disableInStep definition target bypass s).1.target succeeded) =
      if arrivesHere definition target.stepId s succeeded then diverted bypass succeeded
      else (s.action succeeded, s.target succeeded) := by
  rw [disableInStep_other other]
  cases succeeded <;> dsimp only <;> split_ifs <;> simp [divert_eq]

end Diverting

/-! ## Where the edited job goes -/

/-- A branch arrives at a step exactly if the job goes there next. -/
theorem arrivesHere_iff (nonzero : stepId ≠ 0) {s : JobStep} {succeeded : Bool} :
    arrivesHere definition stepId s succeeded = true ↔
      nextStepAfter definition s succeeded = some stepId := by
  rw [arrivesHere, decide_eq_true_iff, nextStepAfter]
  by_cases jumps : s.action succeeded = StepAction.GoToStep
  · simp only [jumps, true_and, ↓reduceIte]
    by_cases zero : s.target succeeded = 0
    · simp [zero, nonzero.symm]
    · simp [zero]
  · simp only [jumps, false_and, false_or, ↓reduceIte]
    by_cases falls : s.action succeeded = StepAction.GoToNextStep <;> simp [falls]

theorem nextStepAfter_ne_zero (positive : ∀ stepId ∈ definition.stepIds, 1 ≤ stepId) (s : JobStep)
    (succeeded : Bool) : nextStepAfter definition s succeeded ≠ some 0 := by
  unfold nextStepAfter
  split_ifs with jumps zero falls
  · simp
  · simpa using zero
  · intro next
    have member := (stepIdAfter_eq_some.mp next).1
    exact absurd (positive 0 member) (by decide)
  · simp

/-- What follows a step depends on it only through its id and that branch. -/
theorem nextStepAfter_branch {first second : JobStep} {succeeded : Bool}
    (sameId : first.stepId = second.stepId)
    (same : (first.action succeeded, first.target succeeded) =
      (second.action succeeded, second.target succeeded)) :
    nextStepAfter definition first succeeded = nextStepAfter definition second succeeded := by
  rw [Prod.mk.injEq] at same
  rw [nextStepAfter, nextStepAfter, same.1, same.2, sameId]

/-- A diverted branch goes wherever the bypass does. -/
theorem nextStepAfter_diverted {bypass : Option Int} (nonzero : bypass ≠ some 0) {s : JobStep}
    {succeeded : Bool} (same : (s.action succeeded, s.target succeeded) = diverted bypass succeeded) :
    nextStepAfter definition s succeeded = bypass := by
  cases bypass with
  | none =>
    rw [diverted, Prod.mk.injEq] at same
    rw [nextStepAfter, same.1]
    cases succeeded <;> rfl
  | some later =>
    rw [diverted, Prod.mk.injEq] at same
    rw [nextStepAfter, if_pos same.1, same.2, if_neg fun zero => nonzero (congrArg some zero)]

section Disabling
variable {target : JobStep}

/-- What disabling does to a job, when it does not refuse. -/
theorem disableStep_definition (distinct : definition.stepIds.Nodup) (member : target ∈ definition.steps)
    (edits : ¬DisableRefuses definition target.stepId) :
    (disableStep definition target.stepId).definition = { definition with
      steps := definition.steps.map fun s =>
        (disableInStep definition target (nextStepAfter definition target true) s).1
      startStepId := if definition.startStepId = target.stepId then
          (nextStepAfter definition target true).getD definition.startStepId
        else definition.startStepId } := by
  rw [DisableRefuses, jobFlow_next distinct member, not_or, not_or] at edits
  obtain ⟨-, several, leads⟩ := edits
  unfold disableStep
  rw [find_step distinct member]
  simp only [several, ↓reduceIte, List.map_map, Function.comp_def]
  by_cases starts : definition.startStepId = target.stepId
  · cases bypass : nextStepAfter definition target true with
    | none => exact absurd ⟨starts, bypass⟩ leads
    | some later => simp only [starts, ↓reduceIte, Option.getD_some]
  · simp only [starts, ↓reduceIte]

theorem disableStep_stepIds (distinct : definition.stepIds.Nodup) (stepId : Int) :
    (disableStep definition stepId).definition.stepIds = definition.stepIds ∧
      (disableStep definition stepId).definition.steps.map (·.content) =
        definition.steps.map (·.content) := by
  by_cases edits : DisableRefuses definition stepId
  · rw [disableStep_refused distinct edits]
    exact ⟨rfl, rfl⟩
  · obtain ⟨target, member, rfl⟩ := List.mem_map.mp (not_not.mp (not_or.mp edits).1)
    simp only [disableStep_definition distinct member edits, JobDefinition.stepIds, List.map_map]
    exact ⟨List.map_congr_left fun s _ => disableInStep_frame.1,
      List.map_congr_left fun s _ => disableInStep_frame.2⟩

/-- A disable that does not warn left the start step alone and diverted no
explicit branch. -/
theorem disableStep_quiet (distinct : definition.stepIds.Nodup) (member : target ∈ definition.steps)
    (quiet : (disableStep definition target.stepId).warnings = []) :
    ¬DisableRefuses definition target.stepId ∧ definition.startStepId ≠ target.stepId ∧
      ∀ s ∈ definition.steps, s.stepId ≠ target.stepId → ∀ succeeded,
        s.action succeeded = StepAction.GoToStep → s.target succeeded ≠ target.stepId := by
  unfold disableStep at quiet
  rw [find_step distinct member] at quiet
  by_cases only : definition.steps.length = 1
  · simp [only] at quiet
  by_cases starts : definition.startStepId = target.stepId
  · simp only [only, starts, ↓reduceIte] at quiet
    cases bypass : nextStepAfter definition target true <;> simp [bypass] at quiet
  simp only [only, starts, ↓reduceIte, List.flatMap_eq_nil_iff, List.mem_map] at quiet
  refine ⟨?_, starts, fun s there other succeeded jumps same => ?_⟩
  · rintro (absent | single | ⟨here, -⟩)
    · exact absent (List.mem_map_of_mem member)
    · exact only single
    · exact starts here
  · have warns := quiet _ ⟨s, there, rfl⟩
    have arrives : arrivesHere definition target.stepId s succeeded = true := by
      simp [arrivesHere, jumps, same]
    have silent : divertWarning target s succeeded = [] := by
      rw [disableInStep_warnings other, List.append_eq_nil_iff] at warns
      cases succeeded with
      | true => simpa only [arrives, ↓reduceIte] using warns.1
      | false => simpa only [arrives, ↓reduceIte] using warns.2
    simp [divertWarning, jumps] at silent

private theorem next_disabled (distinct : definition.stepIds.Nodup)
    (positive : ∀ stepId ∈ definition.stepIds, 1 ≤ stepId) (member : target ∈ definition.steps)
    (edits : ¬DisableRefuses definition target.stepId) {s : JobStep} (there : s ∈ definition.steps)
    (other : s.stepId ≠ target.stepId) (succeeded : Bool) :
    (jobFlow (disableStep definition target.stepId).definition).next s.stepId succeeded =
      if nextStepAfter definition s succeeded = some target.stepId then
        nextStepAfter definition target true
      else nextStepAfter definition s succeeded := by
  have ids := (disableStep_stepIds distinct target.stepId).1
  have nonzero : target.stepId ≠ 0 := by
    have least := positive _ (List.mem_map_of_mem member)
    omega
  let edited := (disableInStep definition target (nextStepAfter definition target true) s).1
  have sameId : edited.stepId = s.stepId := disableInStep_frame.1
  have editedMember : edited ∈ (disableStep definition target.stepId).definition.steps := by
    rw [disableStep_definition distinct member edits]
    exact List.mem_map_of_mem there
  have branch : (edited.action succeeded, edited.target succeeded) = _ :=
    disableInStep_branch other succeeded
  rw [← sameId, jobFlow_next (ids ▸ distinct) editedMember, nextStepAfter_congr ids]
  simp only [← arrivesHere_iff nonzero]
  split
  · rename_i arrives
    rw [if_pos arrives] at branch
    exact nextStepAfter_diverted (nextStepAfter_ne_zero positive target true) branch
  · rename_i passes
    rw [if_neg passes] at branch
    exact nextStepAfter_branch sameId branch

/-- **Disabling a step bypasses it.** -/
theorem disableStep_bypasses (distinct : definition.stepIds.Nodup)
    (positive : ∀ stepId ∈ definition.stepIds, 1 ≤ stepId) (member : target ∈ definition.steps)
    (away : nextStepAfter definition target true ≠ some target.stepId)
    (edits : ¬DisableRefuses definition target.stepId) :
    Bypasses (jobFlow definition) (jobFlow (disableStep definition target.stepId).definition)
      target.stepId := by
  have ids := (disableStep_stepIds distinct target.stepId).1
  have start := congrArg JobDefinition.startStepId (disableStep_definition distinct member edits)
  have goes : (jobFlow definition).next target.stepId true = nextStepAfter definition target true :=
    jobFlow_next distinct member true
  have others : ∀ i ≠ target.stepId, ∀ succeeded,
      (jobFlow (disableStep definition target.stepId).definition).next i succeeded =
        if (jobFlow definition).next i succeeded = some target.stepId then
          nextStepAfter definition target true
        else (jobFlow definition).next i succeeded := by
    intro i other succeeded
    by_cases there : i ∈ definition.stepIds
    · obtain ⟨s, sMember, rfl⟩ := List.mem_map.mp there
      rw [next_disabled distinct positive member edits sMember other,
        jobFlow_next distinct sMember]
    · rw [jobFlow_next_absent (ids ▸ there), jobFlow_next_absent there, if_neg (by simp)]
  refine ⟨?_, ?_, ?_, ?_, ?_, ?_, ?_⟩
  · funext i
    rw [Bool.eq_iff_iff, jobFlow_present, jobFlow_present, ids]
  · exact jobFlow_present.mpr (List.mem_map_of_mem member)
  · rwa [goes]
  · intro starts
    have leads : nextStepAfter definition target true ≠ none := fun ends =>
      edits (.inr (.inr ⟨starts, goes.trans ends⟩))
    obtain ⟨later, bypass⟩ := Option.ne_none_iff_exists'.mp leads
    have led : definition.startStepId = target.stepId := starts
    rw [if_pos led, bypass, Option.getD_some] at start
    rw [goes, bypass]
    exact congrArg some start.symm
  · intro elsewhere
    exact start.trans (if_neg elsewhere)
  · intro i other succeeded leads
    rw [others i other, if_pos leads, goes]
  · intro i other succeeded passes
    rw [others i other, if_neg passes]

end Disabling

/-- **Disabling a step is a simulation.** The step is out of reach, every step
keeps its id and everything that is not control flow, and under every oracle the
job runs as it did with the step's visits succeeding and erased. -/
theorem disableStep_simulates (distinct : definition.stepIds.Nodup)
    (positive : ∀ stepId ∈ definition.stepIds, 1 ≤ stepId)
    (away : (jobFlow definition).next stepId true ≠ some stepId)
    (edits : ¬DisableRefuses definition stepId) :
    let result := (disableStep definition stepId).definition
    stepId ∉ reachableSteps result ∧
      result.stepIds = definition.stepIds ∧
      result.steps.map (·.content) = definition.steps.map (·.content) ∧
      ∀ (oracle : List Int → Int → Bool) (steps long : Nat), 2 * steps ≤ long →
        (jobFlow result).run oracle steps =
          (((jobFlow definition).run (succeeding oracle stepId) long).filter (· ≠ stepId)).take steps := by
  obtain ⟨target, member, rfl⟩ := List.mem_map.mp (not_not.mp (not_or.mp edits).1)
  rw [jobFlow_next distinct member] at away
  have bypasses := disableStep_bypasses distinct positive member away edits
  have kept := disableStep_stepIds distinct target.stepId
  refine ⟨fun reached => bypasses.not_reaches (mem_reachableSteps.mp reached), kept.1, kept.2, ?_⟩
  exact fun oracle steps long enough => run_bypass oracle bypasses enough

/-- Step 2 of three is skipped: step 1 leads past it on either outcome. -/
theorem disableStep_simulates_middle :
    let job := sampleJob 1 [
      sampleStep 1 StepAction.GoToNextStep 0 StepAction.GoToStep 2,
      sampleStep 2 StepAction.GoToNextStep 0 StepAction.QuitWithFailure 0,
      sampleStep 3 StepAction.GoToStep 1 StepAction.QuitWithFailure 0]
    let result := (disableStep job 2).definition
    2 ∉ reachableSteps result ∧ result.stepIds = [1, 2, 3] ∧
      result.steps.map (·.content) = job.steps.map (·.content) ∧
      ∀ (oracle : List Int → Int → Bool) (steps long : Nat), 2 * steps ≤ long →
        (jobFlow result).run oracle steps =
          (((jobFlow job).run (succeeding oracle 2) long).filter (· ≠ 2)).take steps :=
  disableStep_simulates (by decide) (by decide) (by decide) (by decide)

end RemoteSqlAgent
