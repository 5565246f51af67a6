import RemoteSqlAgent.StepNodes
import RemoteSqlAgent.StepBypass

/-! Switching a step back on repairs the step above it from positions alone.
What that can put back, and whether it brings the step into reach, is settled
by the branches of the two steps. -/
namespace RemoteSqlAgent
open Js FlowGraph

variable {definition : JobDefinition} {stepId : Int}

/-! ## What is repaired -/

/-- The step below, where a disabled step's traffic is presumed to have gone. -/
def below (definition : JobDefinition) (stepId : Int) : Option Int :=
  if stepId < definition.steps.length then some (stepId + 1) else none

/-- A branch has the shape that is taken for one that `disableStep` left. -/
def Detours (bypass : Option Int) (step : JobStep) (succeeded : Bool) : Prop :=
  (step.action succeeded = StepAction.GoToStep ∧ bypass = some (step.target succeeded)) ∨
    (succeeded = true ∧ bypass = none ∧ step.action succeeded = StepAction.QuitWithSuccess)

instance (bypass : Option Int) (step : JobStep) (succeeded : Bool) :
    Decidable (Detours bypass step succeeded) := instDecidableOr

/-- The step above the one being switched on. -/
def repaired (definition : JobDefinition) (stepId : Int) (s : JobStep) : JobStep :=
  [true, false].foldl (restoreBranch definition stepId (below definition stepId) s) s

/-- The step being switched on, which must not fall off the end. -/
def closed (definition : JobDefinition) (stepId : Int) (s : JobStep) : JobStep :=
  if s.onSuccessAction = StepAction.GoToNextStep ∧ below definition stepId = none then
    { s with onSuccessAction := StepAction.QuitWithSuccess, onSuccessStepId := 0 }
  else s

/-- One step of a job in which `stepId` is switched on. -/
def enableInStep (definition : JobDefinition) (stepId : Int) (s : JobStep) : JobStep :=
  if s.stepId = stepId then closed definition stepId s
  else if s.stepId = stepId - 1 then repaired definition stepId s
  else s

theorem restoreBranch_eq (bypass : Option Int) (s step : JobStep) (succeeded : Bool) :
    restoreBranch definition stepId bypass s step succeeded =
      if nextStepAfter definition s succeeded ≠ some stepId ∧ Detours bypass step succeeded then
        step.withBranch succeeded StepAction.GoToNextStep 0
      else step := by
  unfold restoreBranch Detours
  by_cases leads : nextStepAfter definition s succeeded = some stepId <;> simp [leads]

theorem repaired_branch (definition : JobDefinition) (stepId : Int) (s : JobStep) (succeeded : Bool) :
    ((repaired definition stepId s).action succeeded, (repaired definition stepId s).target succeeded) =
      if nextStepAfter definition s succeeded ≠ some stepId ∧
          Detours (below definition stepId) s succeeded then
        (StepAction.GoToNextStep, 0)
      else (s.action succeeded, s.target succeeded) := by
  simp only [repaired, List.foldl_cons, List.foldl_nil, restoreBranch_eq]
  cases succeeded
  case true =>
    split_ifs <;> simp_all
  case false =>
    have unread : ∀ action target, Detours (below definition stepId) (s.withBranch true action target) false ↔
        Detours (below definition stepId) s false := by
      intro action target
      simp [Detours]
    split_ifs <;> simp_all

theorem enableInStep_frame (s : JobStep) : (enableInStep definition stepId s).stepId = s.stepId ∧
    (enableInStep definition stepId s).content = s.content := by
  unfold enableInStep closed repaired
  simp only [List.foldl_cons, List.foldl_nil, restoreBranch_eq]
  split_ifs <;> exact ⟨rfl, rfl⟩

/-! ## The edited job -/

section Enabling
variable (numbered : Numbered definition)
include numbered

private theorem ordered_getElem? (index : Nat) :
    (orderedSteps definition)[index]?.map (·.stepId) =
      if index < definition.steps.length then some ((index : Int) + 1) else none := by
  rw [← List.getElem?_map]
  change (positions definition)[index]? = _
  rw [numbered.positions_eq, List.getElem?_map]
  split
  · rename_i inside
    rw [List.getElem?_range inside]
    rfl
  · rename_i outside
    rw [List.getElem?_eq_none (by simpa using outside)]
    rfl

private theorem ordered_findIdx (there : stepId ∈ definition.stepIds) :
    (orderedSteps definition).findIdx (fun s => s.stepId = stepId) = (stepId - 1).toNat := by
  obtain ⟨low, high⟩ := numbered.mem_stepIds.mp there
  have found : (positions definition).findIdx (fun id => decide (id = stepId)) = (stepId - 1).toNat := by
    rw [numbered.positions_eq, List.findIdx_eq (by simp; omega)]
    simp only [List.getElem_map, List.getElem_range, decide_eq_true_eq, decide_eq_false_iff_not]
    exact ⟨by omega, fun earlier _ => by omega⟩
  rw [← found, positions, List.findIdx_map]
  rfl

/-- What enabling does to a numbered job. -/
theorem enableStep_definition (there : stepId ∈ definition.stepIds)
    (unreached : stepId ∉ reachableSteps definition) :
    (enableStep definition stepId).definition = { definition with
      steps := definition.steps.map (enableInStep definition stepId)
      startStepId := if stepId = 1 then 1 else definition.startStepId } := by
  obtain ⟨low, high⟩ := numbered.mem_stepIds.mp there
  obtain ⟨target, member, rfl⟩ := List.mem_map.mp there
  have width : (orderedSteps definition).length = definition.steps.length := length_sortBy
  have index : (target.stepId - 1).toNat + 1 = target.stepId.toNat := by omega
  have next : (orderedSteps definition)[(target.stepId - 1).toNat + 1]?.map (·.stepId) =
      below definition target.stepId := by
    rw [ordered_getElem? numbered, below]
    split_ifs <;> first | omega | (congr 1; omega) | rfl
  have last : (target.stepId - 1).toNat + 1 = (orderedSteps definition).length ↔
      below definition target.stepId = none := by
    rw [below, width]
    split_ifs <;> simp <;> omega
  unfold enableStep
  rw [find_step numbered.distinct member]
  simp only [unreached, ↓reduceIte, ordered_findIdx numbered there, next, last, decide_eq_true_eq]
  by_cases first : target.stepId = 1
  · have top : (target.stepId - 1).toNat = 0 := by omega
    simp only [top, ↓reduceIte, Option.isSome_none, Bool.false_eq_true]
    congr 1
    · rw [if_pos first, first]
    · refine List.map_congr_left fun s sMember => ?_
      have positive := numbered.positive _ (List.mem_map_of_mem sMember)
      have notAbove : s.stepId ≠ target.stepId - 1 := by omega
      simp only [enableInStep, closed, notAbove, ↓reduceIte, ite_not]
  · have above := ordered_getElem? numbered ((target.stepId - 1).toNat - 1)
    rw [if_pos (by omega), Option.map_eq_some_iff] at above
    obtain ⟨previous, found, same⟩ := above
    have notTop : (target.stepId - 1).toNat ≠ 0 := by omega
    have id : previous.stepId = target.stepId - 1 := by omega
    simp only [notTop, ↓reduceIte, found, Option.isSome_some, first, id, ite_not]
    rfl

theorem enableStep_stepIds (there : stepId ∈ definition.stepIds)
    (unreached : stepId ∉ reachableSteps definition) :
    (enableStep definition stepId).definition.stepIds = definition.stepIds := by
  simp only [enableStep_definition numbered there unreached, JobDefinition.stepIds, List.map_map]
  exact List.map_congr_left fun s _ => (enableInStep_frame s).1

private theorem next_enabled (there : stepId ∈ definition.stepIds)
    (unreached : stepId ∉ reachableSteps definition) {s : JobStep} (member : s ∈ definition.steps)
    (succeeded : Bool) :
    (jobFlow (enableStep definition stepId).definition).next s.stepId succeeded =
      nextStepAfter definition (enableInStep definition stepId s) succeeded := by
  have ids := enableStep_stepIds numbered there unreached
  have edited : enableInStep definition stepId s ∈ (enableStep definition stepId).definition.steps := by
    rw [enableStep_definition numbered there unreached]
    exact List.mem_map_of_mem member
  rw [← (enableInStep_frame s).1, jobFlow_next (ids ▸ numbered.distinct) edited,
    nextStepAfter_congr ids]

/-- The branches of the step above that are led to the step being switched on. -/
private theorem next_repaired (there : stepId ∈ definition.stepIds)
    (unreached : stepId ∉ reachableSteps definition) {previous : JobStep}
    (member : previous ∈ definition.steps) (above : previous.stepId = stepId - 1) (succeeded : Bool) :
    (jobFlow (enableStep definition stepId).definition).next previous.stepId succeeded =
      if Detours (below definition stepId) previous succeeded then some stepId
      else nextStepAfter definition previous succeeded := by
  obtain ⟨low, high⟩ := numbered.mem_stepIds.mp there
  have positive := numbered.positive _ (List.mem_map_of_mem member)
  have notHere : previous.stepId ≠ stepId := by omega
  have stays : enableInStep definition stepId previous = repaired definition stepId previous := by
    rw [enableInStep, if_neg notHere, if_pos above]
  have sameId : (repaired definition stepId previous).stepId = previous.stepId :=
    stays ▸ (enableInStep_frame previous).1
  have branch := repaired_branch definition stepId previous succeeded
  rw [next_enabled numbered there unreached member, stays]
  by_cases repairs : nextStepAfter definition previous succeeded ≠ some stepId ∧
      Detours (below definition stepId) previous succeeded
  · rw [if_pos repairs, Prod.mk.injEq] at branch
    rw [if_pos repairs.2, nextStepAfter, branch.1, if_neg (by decide), if_pos rfl, sameId,
      numbered.stepIdAfter_eq positive, if_pos (by omega)]
    congr 1
    omega
  · rw [if_neg repairs] at branch
    rw [nextStepAfter_branch sameId branch]
    split
    · rename_i detours
      exact not_not.mp fun away => repairs ⟨away, detours⟩
    · rfl

private theorem enableStep_retargets (there : stepId ∈ definition.stepIds) (notFirst : stepId ≠ 1)
    (unreached : stepId ∉ reachableSteps definition) :
    Retargets (jobFlow definition) (jobFlow (enableStep definition stepId).definition) (stepId - 1) stepId := by
  have ids := enableStep_stepIds numbered there unreached
  obtain ⟨low, high⟩ := numbered.mem_stepIds.mp there
  refine ⟨?_, ?_, jobFlow_present.mpr there, fun reached => unreached (mem_reachableSteps.mpr reached),
    fun i notAbove notHere => funext fun succeeded => ?_, fun succeeded => ?_⟩
  · simp only [jobFlow, enableStep_definition numbered there unreached, notFirst, ↓reduceIte]
  · funext i
    rw [Bool.eq_iff_iff, jobFlow_present, jobFlow_present, ids]
  · by_cases member : i ∈ definition.stepIds
    · obtain ⟨s, sMember, rfl⟩ := List.mem_map.mp member
      rw [next_enabled numbered there unreached sMember, enableInStep, if_neg notHere, if_neg notAbove,
        jobFlow_next numbered.distinct sMember]
    · rw [jobFlow_next_absent (ids ▸ member), jobFlow_next_absent member]
  · obtain ⟨previous, member, above⟩ :=
      List.mem_map.mp (numbered.mem_stepIds.mpr ⟨by omega, by omega⟩ : stepId - 1 ∈ definition.stepIds)
    rw [← above, next_repaired numbered there unreached member above,
      jobFlow_next numbered.distinct member]
    split
    · exact .inr rfl
    · exact .inl rfl

end Enabling

/-! ## Reach -/

theorem enableStep_warnings (definition : JobDefinition) (stepId : Int) :
    (enableStep definition stepId).warnings = [] := by
  unfold enableStep
  cases definition.steps.find? fun s => decide (s.stepId = stepId) with
  | none => rfl
  | some target =>
    dsimp only
    split <;> rfl

/-- Enabling brings a step into reach: it is in reach already, it is the first
step, or the step above is in reach and has a branch that looks diverted. -/
def Rejoins (definition : JobDefinition) (stepId : Int) : Prop :=
  stepId ∈ reachableSteps definition ∨ stepId = 1 ∨
    (stepId - 1 ∈ reachableSteps definition ∧
      ∃ previous ∈ definition.steps, previous.stepId = stepId - 1 ∧
        ∃ succeeded, Detours (below definition stepId) previous succeeded)

/-- **Enabling a step never warns, and switches it on exactly when it rejoins.** -/
theorem enableStep_switches_on_iff (numbered : Numbered definition) (there : stepId ∈ definition.stepIds) :
    let result := enableStep definition stepId
    (isStepDisabled result.definition stepId = false ∨ result.warnings ≠ []) ↔ Rejoins definition stepId := by
  dsimp only
  rw [isStepDisabled, decide_eq_false_iff_not, not_not, enableStep_warnings]
  simp only [ne_eq, not_true_eq_false, or_false]
  by_cases reached : stepId ∈ reachableSteps definition
  · obtain ⟨target, member, rfl⟩ := List.mem_map.mp there
    have same : (enableStep definition target.stepId).definition = definition := by
      unfold enableStep
      rw [find_step numbered.distinct member]
      simp only [reached, ↓reduceIte]
    rw [same]
    exact ⟨.inl, fun _ => reached⟩
  by_cases first : stepId = 1
  · refine ⟨fun _ => .inr (.inl first), fun _ => mem_reachableSteps.mpr ?_⟩
    have starts : (jobFlow (enableStep definition stepId).definition).start = stepId := by
      have start := congrArg JobDefinition.startStepId (enableStep_definition numbered there reached)
      exact start.trans ((if_pos first).trans first.symm)
    have present : (jobFlow (enableStep definition stepId).definition).present stepId = true :=
      jobFlow_present.mpr ((enableStep_stepIds numbered there reached).symm ▸ there)
    have atStart := Flow.Reaches.start (by rw [starts]; exact present)
    rwa [starts] at atStart
  rw [mem_reachableSteps, (enableStep_retargets numbered there first reached).reaches_iff,
    ← mem_reachableSteps, Rejoins, or_iff_right reached, or_iff_right first]
  obtain ⟨low, high⟩ := numbered.mem_stepIds.mp there
  obtain ⟨previous, member, above⟩ :=
    List.mem_map.mp (numbered.mem_stepIds.mpr ⟨by omega, by omega⟩ : stepId - 1 ∈ definition.stepIds)
  refine and_congr_right fun reachedAbove => ?_
  simp only [← above, next_repaired numbered there reached member above]
  constructor
  · rintro ⟨succeeded, leads⟩
    refine ⟨previous, member, rfl, succeeded, ?_⟩
    by_contra plain
    rw [if_neg plain] at leads
    -- A step that led here already would have had it in reach.
    have leadsHere : (jobFlow definition).next (stepId - 1) succeeded = some stepId := by
      rw [← above, jobFlow_next numbered.distinct member, leads]
    exact reached (mem_reachableSteps.mpr (.next (mem_reachableSteps.mp reachedAbove) leadsHere
      (jobFlow_present.mpr there)))
  · rintro ⟨other, otherMember, same, succeeded, detours⟩
    obtain rfl := List.inj_on_of_nodup_map numbered.distinct otherMember member same
    exact ⟨succeeded, if_pos detours⟩

/-- Every reference a run can follow names a position of the job. -/
def InRange (definition : JobDefinition) : Prop :=
  (1 ≤ definition.startStepId ∧ definition.startStepId ≤ definition.steps.length) ∧
    ∀ step ∈ definition.steps, ∀ succeeded, step.action succeeded = StepAction.GoToStep →
      1 ≤ step.target succeeded ∧ step.target succeeded ≤ definition.steps.length

instance (definition : JobDefinition) : Decidable (InRange definition) := instDecidableAnd

/-- Three steps in a row, of which the second and then the third were disabled. -/
def twoDisabled : JobDefinition :=
  (disableStep (disableStep (sampleJob 1 [
    sampleStep 1 StepAction.GoToNextStep 0 StepAction.QuitWithFailure 0,
    sampleStep 2 StepAction.GoToNextStep 0 StepAction.QuitWithFailure 0,
    sampleStep 3 StepAction.QuitWithSuccess 0 StepAction.QuitWithFailure 0]) 2).definition 3).definition

/-- The step above the third is itself out of reach, so nothing arrives. -/
theorem enableStep_leaves_off_below_disabled :
    Numbered twoDisabled ∧ InRange twoDisabled ∧ 3 ∈ twoDisabled.stepIds ∧
      ¬(isStepDisabled (enableStep twoDisabled 3).definition 3 = false ∨
        (enableStep twoDisabled 3).warnings ≠ []) := by decide

/-- Switching the second step back on first does work. -/
theorem enableStep_switches_on_iff_second :
    let result := enableStep twoDisabled 2
    (isStepDisabled result.definition 2 = false ∨ result.warnings ≠ []) ↔ Rejoins twoDisabled 2 :=
  enableStep_switches_on_iff (by decide) (by decide)

/-! ## Round trips -/

/-- The branches of a step and of the one above it are such that switching the
step off and on again puts them back. -/
def Restorable (definition : JobDefinition) (stepId : Int) : Prop :=
  ∀ target ∈ definition.steps, target.stepId = stepId →
    ∀ previous ∈ definition.steps, previous.stepId = stepId - 1 →
      if stepId < definition.steps.length then
        nextStepAfter definition target true = some (stepId + 1) ∧
          ∀ succeeded, previous.action succeeded = StepAction.GoToStep →
            previous.target succeeded ≠ stepId + 1
      else
        target.onSuccessAction ≠ StepAction.GoToNextStep ∧
          target.onSuccessAction ≠ StepAction.GoToStep ∧
          previous.onFailAction ≠ StepAction.GoToNextStep

theorem detours_congr {bypass : Option Int} {first second : JobStep} {succeeded : Bool}
    (same : (first.action succeeded, first.target succeeded) =
      (second.action succeeded, second.target succeeded)) :
    Detours bypass first succeeded ↔ Detours bypass second succeeded := by
  rw [Prod.mk.injEq] at same
  rw [Detours, Detours, same.1, same.2]

/-- A diverted branch looks diverted if it was led to the step below, or if a
success was made to quit at the end. -/
theorem detours_diverted {bypass expected : Option Int} {step : JobStep} {succeeded : Bool}
    (same : (step.action succeeded, step.target succeeded) = diverted bypass succeeded) :
    Detours expected step succeeded ↔ bypass = expected ∧ (expected = none → succeeded = true) := by
  cases bypass with
  | none =>
    rw [diverted, Prod.mk.injEq] at same
    rw [Detours, same.1]
    cases succeeded <;> simp [eq_comm]
  | some later =>
    rw [diverted, Prod.mk.injEq] at same
    rw [Detours, same.1, same.2]
    cases expected <;> simp [eq_comm]

/-- Off and on again, a branch of the step above keeps what it did: a fall is put back, and
nothing else is taken for a fall that was diverted. -/
def Restores (definition : JobDefinition) (target previous : JobStep) (succeeded : Bool) : Prop :=
  if previous.action succeeded = StepAction.GoToNextStep then
    nextStepAfter definition target true = below definition target.stepId ∧
      (below definition target.stepId = none → succeeded = true)
  else ¬Detours (below definition target.stepId) previous succeeded

section RoundTrip
variable (numbered : Numbered definition) {target previous : JobStep} (member : target ∈ definition.steps)
  (noJumps : ∀ s ∈ definition.steps, s.stepId ≠ target.stepId → ∀ succeeded,
    s.action succeeded = StepAction.GoToStep → s.target succeeded ≠ target.stepId)
include numbered member noJumps

/-- Where no branch jumps to a step, only the one above falls into it. -/
private theorem nextStepAfter_iff_falls {s : JobStep} (there : s ∈ definition.steps)
    (other : s.stepId ≠ target.stepId) (succeeded : Bool) :
    nextStepAfter definition s succeeded = some target.stepId ↔
      s.stepId = target.stepId - 1 ∧ s.action succeeded = StepAction.GoToNextStep := by
  have positive := numbered.positive _ (List.mem_map_of_mem there)
  obtain ⟨-, high⟩ := numbered.mem_stepIds.mp (List.mem_map_of_mem member)
  rw [nextStepAfter, numbered.stepIdAfter_eq positive]
  by_cases jumps : s.action succeeded = StepAction.GoToStep
  · have misses := noJumps s there other succeeded jumps
    simp only [jumps, ↓reduceIte]
    split_ifs <;> simp_all
  · simp only [jumps, ↓reduceIte]
    by_cases falls : s.action succeeded = StepAction.GoToNextStep
    · simp only [falls, ↓reduceIte, and_true]
      split_ifs
      · rw [Option.some.injEq]
        omega
      · refine iff_of_false (by simp) ?_
        omega
    · simp [falls]

/-- Off and on again, a branch of the step above is as it was if what it fell
into is put back, or if it is not taken for a branch that was diverted. -/
private theorem restored_branch_iff (plain : ∀ step ∈ definition.steps, ∀ succeeded,
      step.action succeeded ≠ StepAction.GoToStep → step.target succeeded = 0)
    (away : nextStepAfter definition target true ≠ some target.stepId)
    (edits : ¬DisableRefuses definition target.stepId) (there : previous ∈ definition.steps)
    (above : previous.stepId = target.stepId - 1) (succeeded : Bool) :
    let result := (disableStep definition target.stepId).definition
    let edited := (disableInStep definition target (nextStepAfter definition target true) previous).1
    ((repaired result target.stepId edited).action succeeded,
        (repaired result target.stepId edited).target succeeded) =
        (previous.action succeeded, previous.target succeeded) ↔
      Restores definition target previous succeeded := by
  intro result edited
  have other : previous.stepId ≠ target.stepId := by omega
  have bypasses := disableStep_bypasses numbered.distinct numbered.positive member away edits
  have ids := (disableStep_stepIds numbered.distinct target.stepId).1
  have nonzero : target.stepId ≠ 0 := by
    have positive := numbered.positive _ (List.mem_map_of_mem member)
    omega
  have sameBelow : below result target.stepId = below definition target.stepId := by
    have width : result.steps.length = definition.steps.length := by
      simpa only [JobDefinition.stepIds, List.length_map] using congrArg List.length ids
    rw [below, below, width]
  have editedMember : edited ∈ result.steps := by
    have steps := congrArg JobDefinition.steps (disableStep_definition numbered.distinct member edits)
    exact steps ▸ List.mem_map_of_mem there
  have sameId : edited.stepId = previous.stepId := disableInStep_frame.1
  have leavesOff : nextStepAfter result edited succeeded ≠ some target.stepId := by
    rw [← jobFlow_next (ids ▸ numbered.distinct) editedMember, sameId]
    exact bypasses.next_ne other succeeded
  have branch : (edited.action succeeded, edited.target succeeded) = _ :=
    disableInStep_branch other succeeded
  have falls : arrivesHere definition target.stepId previous succeeded = true ↔
      previous.action succeeded = StepAction.GoToNextStep := by
    rw [arrivesHere_iff nonzero, nextStepAfter_iff_falls numbered member noJumps there other]
    exact and_iff_right above
  rw [repaired_branch, sameBelow, Restores]
  simp only [ne_eq, leavesOff, not_false_eq_true, true_and]
  by_cases next : previous.action succeeded = StepAction.GoToNextStep
  · rw [if_pos (falls.mpr next)] at branch
    rw [if_pos next]
    by_cases detours : Detours (below definition target.stepId) edited succeeded
    · have noTarget := plain previous there succeeded (by rw [next]; decide)
      rw [if_pos detours]
      exact iff_of_true (by rw [next, noTarget]) ((detours_diverted branch).mp detours)
    · rw [if_neg detours, branch]
      refine iff_of_false (fun same => ?_) fun restored => detours ((detours_diverted branch).mpr restored)
      rw [next] at same
      cases bypass : nextStepAfter definition target true with
      | none => cases succeeded <;> simp [diverted, bypass] at same
      | some later => simp [diverted, bypass] at same
  · rw [if_neg fun arrives => next (falls.mp arrives)] at branch
    rw [if_neg next, ← detours_congr branch]
    by_cases detours : Detours (below definition target.stepId) edited succeeded
    · rw [if_pos detours]
      exact iff_of_false (fun same => next (congrArg Prod.fst same).symm) (not_not_intro detours)
    · rw [if_neg detours]
      exact iff_of_true branch detours

/-- No step but the two is edited either time. -/
private theorem restored_elsewhere (result : JobDefinition) {s : JobStep} (there : s ∈ definition.steps)
    (other : s.stepId ≠ target.stepId) (notAbove : s.stepId ≠ target.stepId - 1) :
    enableInStep result target.stepId
      (disableInStep definition target (nextStepAfter definition target true) s).1 = s := by
  have nonzero : target.stepId ≠ 0 := by
    have positive := numbered.positive _ (List.mem_map_of_mem member)
    omega
  have untouched : (disableInStep definition target (nextStepAfter definition target true) s).1 = s := by
    refine step_ext disableInStep_frame.1 disableInStep_frame.2 fun succeeded => ?_
    rw [disableInStep_branch other, if_neg]
    rw [arrivesHere_iff nonzero, nextStepAfter_iff_falls numbered member noJumps there other]
    exact fun falls => notAbove falls.1
  rw [untouched, enableInStep, if_neg other, if_neg notAbove]

/-- Switched off and on again, the job is as it was exactly if the step itself
does not run on from the end and the branches of the step above are restored. -/
private theorem restored_steps_iff (plain : ∀ step ∈ definition.steps, ∀ succeeded,
      step.action succeeded ≠ StepAction.GoToStep → step.target succeeded = 0)
    (away : nextStepAfter definition target true ≠ some target.stepId)
    (edits : ¬DisableRefuses definition target.stepId)
    (notStart : definition.startStepId ≠ target.stepId) (there : previous ∈ definition.steps)
    (above : previous.stepId = target.stepId - 1) :
    (enableStep (disableStep definition target.stepId).definition target.stepId).definition = definition ↔
      ¬(target.onSuccessAction = StepAction.GoToNextStep ∧ below definition target.stepId = none) ∧
        ∀ succeeded, Restores definition target previous succeeded := by
  have branches := restored_branch_iff numbered member noJumps plain away edits there above
  have bypasses := disableStep_bypasses numbered.distinct numbered.positive member away edits
  have ids := (disableStep_stepIds numbered.distinct target.stepId).1
  have disabled := disableStep_definition numbered.distinct member edits
  rw [if_neg notStart] at disabled
  generalize (disableStep definition target.stepId).definition = result at *
  have width : result.steps.length = definition.steps.length := by
    simpa only [JobDefinition.stepIds, List.length_map] using congrArg List.length ids
  have sameBelow : below result target.stepId = below definition target.stepId := by
    rw [below, below, width]
  have renumbered : Numbered result := by
    rw [Numbered, ids, width]
    exact numbered
  have here : target.stepId ∈ definition.stepIds := List.mem_map_of_mem member
  have notFirst : target.stepId ≠ 1 := by
    have positive := numbered.positive _ (List.mem_map_of_mem there)
    omega
  have enabled := enableStep_definition renumbered (ids.symm ▸ here) fun reached =>
    bypasses.not_reaches (mem_reachableSteps.mp reached)
  rw [if_neg notFirst] at enabled
  have steps : (enableStep result target.stepId).definition = definition ↔
      ∀ s ∈ definition.steps, enableInStep result target.stepId
        (disableInStep definition target (nextStepAfter definition target true) s).1 = s := by
    have frame : ∀ steps, ({ result with steps, startStepId := result.startStepId } : JobDefinition) =
        { definition with steps } := fun steps => by rw [disabled]
    have edited := congrArg JobDefinition.steps disabled
    rw [enabled, frame, edited, List.map_map]
    constructor
    · intro same
      exact List.map_inj_left.mp ((congrArg JobDefinition.steps same).trans (List.map_id _).symm)
    · intro same
      exact congrArg (fun steps => { definition with steps })
        ((List.map_congr_left same).trans (List.map_id _))
  have onTarget : enableInStep result target.stepId
      (disableInStep definition target (nextStepAfter definition target true) target).1 =
        closed result target.stepId target := by
    rw [disableInStep_self rfl, enableInStep, if_pos rfl]
  have onPrevious : enableInStep result target.stepId
      (disableInStep definition target (nextStepAfter definition target true) previous).1 =
        repaired result target.stepId
          (disableInStep definition target (nextStepAfter definition target true) previous).1 := by
    rw [enableInStep, if_neg, if_pos]
    · exact disableInStep_frame.1.trans above
    · rw [disableInStep_frame.1]
      omega
  rw [steps]
  constructor
  · intro restored
    constructor
    · intro ends
      have same := (onTarget.symm.trans (restored target member))
      rw [closed, if_pos (sameBelow.symm ▸ ends)] at same
      have changed : StepAction.QuitWithSuccess = StepAction.GoToNextStep :=
        (congrArg JobStep.onSuccessAction same).trans ends.1
      exact absurd changed (by decide)
    · intro succeeded
      have same := onPrevious.symm.trans (restored previous there)
      exact (branches succeeded).mp (by rw [same])
  · rintro ⟨ends, restored⟩ s sMember
    by_cases atTarget : s.stepId = target.stepId
    · obtain rfl := List.inj_on_of_nodup_map numbered.distinct sMember member atTarget
      rw [onTarget, closed, if_neg (sameBelow.symm ▸ ends)]
    by_cases atPrevious : s.stepId = previous.stepId
    · obtain rfl := List.inj_on_of_nodup_map numbered.distinct sMember there atPrevious
      refine step_ext ?_ ?_ fun succeeded => ?_
      · rw [(enableInStep_frame _).1, disableInStep_frame.1]
      · rw [(enableInStep_frame _).2, disableInStep_frame.2]
      · rw [onPrevious]
        exact (branches succeeded).mpr (restored succeeded)
    · exact restored_elsewhere numbered member noJumps result sMember atTarget (above ▸ atPrevious)

end RoundTrip

/-- A step that no branch of its own jumps to is not what comes after it. -/
private theorem next_ne_self (numbered : Numbered definition) {target : JobStep} (member : target ∈ definition.steps)
    (misses : ∀ succeeded, target.action succeeded = StepAction.GoToStep → target.target succeeded ≠ target.stepId)
    (succeeded : Bool) : nextStepAfter definition target succeeded ≠ some target.stepId := by
  obtain ⟨low, high⟩ := numbered.mem_stepIds.mp (List.mem_map_of_mem member)
  rw [nextStepAfter, numbered.stepIdAfter_eq low]
  split_ifs with jumps zero falls inside
  · simp
  · simpa using misses succeeded jumps
  · simp
  · simp
  · simp

/-- A step that is neither the first nor jumped to is reached by a fall from the step above. -/
private theorem falls_into (numbered : Numbered definition) {target : JobStep} (member : target ∈ definition.steps)
    (noJumps : ∀ s ∈ definition.steps, s.stepId ≠ target.stepId → ∀ succeeded,
      s.action succeeded = StepAction.GoToStep → s.target succeeded ≠ target.stepId)
    (noReturn : ∀ succeeded, nextStepAfter definition target succeeded ≠ some target.stepId)
    (notStart : definition.startStepId ≠ target.stepId) (reaches : (jobFlow definition).Reaches target.stepId) :
    ∃ previous ∈ definition.steps, previous.stepId = target.stepId - 1 ∧
      ∃ succeeded, previous.action succeeded = StepAction.GoToNextStep := by
  generalize same : target.stepId = stepId at reaches
  cases reaches with
  | start => exact absurd same.symm notStart
  | @next i _ succeeded before exit _ =>
    subst same
    obtain ⟨s, sMember, rfl⟩ := List.mem_map.mp (jobFlow_present.mp before.present)
    rw [jobFlow_next numbered.distinct sMember] at exit
    have other : s.stepId ≠ target.stepId := by
      intro same
      obtain rfl := List.inj_on_of_nodup_map numbered.distinct sMember member same
      exact noReturn succeeded exit
    have falls := (nextStepAfter_iff_falls numbered member noJumps sMember other succeeded).mp exit
    exact ⟨s, sMember, falls.1, succeeded, falls.2⟩

private theorem restorable_iff (numbered : Numbered definition) {target previous : JobStep}
    (member : target ∈ definition.steps) (there : previous ∈ definition.steps)
    (above : previous.stepId = target.stepId - 1) :
    Restorable definition target.stepId ↔
      if target.stepId < definition.steps.length then
        nextStepAfter definition target true = some (target.stepId + 1) ∧
          ∀ succeeded, previous.action succeeded = StepAction.GoToStep →
            previous.target succeeded ≠ target.stepId + 1
      else
        target.onSuccessAction ≠ StepAction.GoToNextStep ∧
          target.onSuccessAction ≠ StepAction.GoToStep ∧
          previous.onFailAction ≠ StepAction.GoToNextStep := by
  refine ⟨fun restorable => restorable target member rfl previous there above, ?_⟩
  intro holds first firstMember same second secondMember below
  obtain rfl := List.inj_on_of_nodup_map numbered.distinct firstMember member same
  obtain rfl := List.inj_on_of_nodup_map numbered.distinct secondMember there (below.trans above.symm)
  exact holds

/-- With a step below, the fall is led on to it, and no jump of the step above may lead there. -/
private theorem restores_middle_iff {target previous : JobStep} {branch : Bool}
    (short : target.stepId < definition.steps.length)
    (next : previous.action branch = StepAction.GoToNextStep) :
    (∀ succeeded, Restores definition target previous succeeded) ↔
      nextStepAfter definition target true = some (target.stepId + 1) ∧
        ∀ succeeded, previous.action succeeded = StepAction.GoToStep →
          previous.target succeeded ≠ target.stepId + 1 := by
  unfold Restores
  rw [below, if_pos short]
  constructor
  · intro restored
    have led := restored branch
    rw [if_pos next] at led
    refine ⟨led.1, fun succeeded jumps same => ?_⟩
    have kept := restored succeeded
    rw [if_neg (by rw [jumps]; decide)] at kept
    exact kept (.inl ⟨jumps, congrArg some same.symm⟩)
  · rintro ⟨led, misses⟩ succeeded
    split
    · exact ⟨led, by simp⟩
    · rintro (⟨jumps, same⟩ | ⟨-, absent, -⟩)
      · exact misses succeeded jumps (Option.some.inj same).symm
      · cases absent

/-- A last step that does not fall off the end quits where it does not jump. -/
private theorem quits_iff {target : JobStep} (range : target.action true = StepAction.GoToStep → 1 ≤ target.target true)
    (stays : target.action true ≠ StepAction.GoToNextStep) :
    nextStepAfter definition target true = none ↔ target.action true ≠ StepAction.GoToStep := by
  rw [nextStepAfter, if_neg stays]
  by_cases jumps : target.action true = StepAction.GoToStep
  · have nonzero : target.target true ≠ 0 := by
      have positive := range jumps
      omega
    rw [if_pos jumps, if_neg nonzero]
    exact iff_of_false (by simp) (not_not_intro jumps)
  · rw [if_neg jumps]
    exact iff_of_true rfl jumps

/-- With no step below, only a success that falls into a step that quits is put back. -/
private theorem restores_last_iff {target previous : JobStep} {branch : Bool}
    (short : ¬ target.stepId < definition.steps.length)
    (range : target.action true = StepAction.GoToStep → 1 ≤ target.target true)
    (next : previous.action branch = StepAction.GoToNextStep) (stays : target.action true ≠ StepAction.GoToNextStep) :
    (∀ succeeded, Restores definition target previous succeeded) ↔
      target.onSuccessAction ≠ StepAction.GoToStep ∧ previous.onFailAction ≠ StepAction.GoToNextStep := by
  unfold Restores
  rw [below, if_neg short]
  constructor
  · intro restored
    have fails : previous.onFailAction ≠ StepAction.GoToNextStep := by
      intro (next : previous.action false = StepAction.GoToNextStep)
      have kept := restored false
      rw [if_pos next] at kept
      cases kept.2 rfl
    have onSuccess := restored true
    cases branch with
    | false => exact absurd next fails
    | true =>
      rw [if_pos next] at onSuccess
      exact ⟨(quits_iff range stays).mp onSuccess.1, fails⟩
  · rintro ⟨noJump, fails⟩ succeeded
    cases succeeded with
    | false =>
      rw [if_neg (show ¬previous.action false = StepAction.GoToNextStep from fails)]
      rintro (⟨-, absent⟩ | ⟨absent, -⟩) <;> cases absent
    | true =>
      cases branch with
      | false => exact absurd next fails
      | true =>
        rw [if_pos next]
        exact ⟨(quits_iff range stays).mpr noJump, fun _ => rfl⟩

/-- **Switching a step off without a warning and on again** restores the job
exactly if the branches of the step and of the one above it are restorable. -/
theorem enableStep_undoes_iff (numbered : Numbered definition) (inRange : InRange definition)
    (plain : ∀ step ∈ definition.steps, ∀ succeeded,
      step.action succeeded ≠ StepAction.GoToStep → step.target succeeded = 0)
    (noLoop : ∀ step ∈ definition.steps, ∀ succeeded,
      step.action succeeded = StepAction.GoToStep → step.target succeeded ≠ step.stepId)
    (reached : stepId ∈ reachableSteps definition)
    (quiet : (disableStep definition stepId).warnings = []) :
    (enableStep (disableStep definition stepId).definition stepId).definition = definition ↔
      Restorable definition stepId := by
  have reaches := mem_reachableSteps.mp reached
  obtain ⟨target, member, rfl⟩ := List.mem_map.mp (jobFlow_present.mp reaches.present)
  obtain ⟨edits, notStart, noJumps⟩ := disableStep_quiet numbered.distinct member quiet
  have noReturn := next_ne_self numbered member (noLoop target member)
  obtain ⟨previous, there, above, branch, next⟩ := falls_into numbered member noJumps noReturn notStart reaches
  rw [restored_steps_iff numbered member noJumps plain (noReturn true) edits notStart there above,
    restorable_iff numbered member there above]
  by_cases short : target.stepId < definition.steps.length
  · have stepBelow : below definition target.stepId ≠ none := by
      rw [below, if_pos short]
      exact Option.some_ne_none _
    rw [if_pos short, restores_middle_iff short next]
    exact and_iff_right fun ends => stepBelow ends.2
  · have noneBelow : below definition target.stepId = none := if_neg short
    rw [if_neg short, noneBelow, eq_self, and_true]
    exact and_congr_right (restores_last_iff short (fun jumps => (inRange.2 target member true jumps).1) next)

/-- The second of two steps is reached from the first on either outcome. Its
disabling makes both branches quit, and only success is led back. -/
theorem enableStep_loses_failure_branch :
    let job := sampleJob 1 [
      sampleStep 1 StepAction.GoToNextStep 0 StepAction.GoToNextStep 0,
      sampleStep 2 StepAction.QuitWithSuccess 0 StepAction.QuitWithFailure 0]
    Numbered job ∧ InRange job ∧
      (∀ step ∈ job.steps, ∀ succeeded,
        step.action succeeded ≠ StepAction.GoToStep → step.target succeeded = 0) ∧
      (∀ step ∈ job.steps, ∀ succeeded,
        step.action succeeded = StepAction.GoToStep → step.target succeeded ≠ step.stepId) ∧
      2 ∈ reachableSteps job ∧ (disableStep job 2).definition ≠ job ∧ (disableStep job 2).warnings = [] ∧
      (enableStep (disableStep job 2).definition 2).definition ≠ job := by decide

/-- The failure branch is put back where the step is not the last. -/
theorem enableStep_undoes_iff_middle :
    let job := sampleJob 1 [
      sampleStep 1 StepAction.GoToNextStep 0 StepAction.GoToNextStep 0,
      sampleStep 2 StepAction.GoToNextStep 0 StepAction.QuitWithFailure 0,
      sampleStep 3 StepAction.QuitWithSuccess 0 StepAction.QuitWithFailure 0]
    (enableStep (disableStep job 2).definition 2).definition = job ↔ Restorable job 2 :=
  enableStep_undoes_iff (by decide) (by decide) (by decide) (by decide) (by decide) (by decide)

end RemoteSqlAgent
