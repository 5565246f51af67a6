import RemoteSqlAgent.StepRenumbering

/-! Adding a step. It falls through on success, so a run that passes it goes where it went before, and
the old steps run in the order in which they ran. -/
namespace RemoteSqlAgent
open Js FlowGraph

variable {definition : JobDefinition} {afterStepId : Option Int}

/-- The id that an added step gets. -/
def addedStepId (definition : JobDefinition) (afterStepId : Option Int) : Int :=
  match afterStepId with
  | some stepId => if stepId ∈ definition.stepIds then stepId + 1 else definition.steps.length + 1
  | none => definition.steps.length + 1

/-- The id that an old step has after one was added. -/
def madeRoom (added stepId : Int) : Int := if stepId < added then stepId else stepId + 1

/-- The id that a step had before one was added. -/
def gaveRoom (added stepId : Int) : Int := if stepId < added then stepId else stepId - 1

@[simp] theorem gaveRoom_madeRoom (added stepId : Int) : gaveRoom added (madeRoom added stepId) = stepId := by
  unfold gaveRoom madeRoom
  split_ifs <;> omega

theorem madeRoom_ne (added stepId : Int) : madeRoom added stepId ≠ added := by
  unfold madeRoom
  split_ifs <;> omega

section Adding
variable (numbered : Numbered definition)
include numbered

theorem addedStepId_range (starts : definition.startStepId ∈ definition.stepIds) (afterStepId : Option Int) :
    2 ≤ addedStepId definition afterStepId ∧ addedStepId definition afterStepId ≤ definition.steps.length + 1 := by
  obtain ⟨low, high⟩ := numbered.mem_stepIds.mp starts
  unfold addedStepId
  cases afterStepId with
  | none => exact ⟨by dsimp; omega, le_refl _⟩
  | some stepId =>
    dsimp only
    split_ifs with there
    · obtain ⟨least, most⟩ := numbered.mem_stepIds.mp there
      exact ⟨by omega, by omega⟩
    · exact ⟨by omega, le_refl _⟩

/-- Where the new step is put in. -/
theorem insertAt_eq (afterStepId : Option Int) :
    (((afterStepId.bind (positions definition).idxOf?).map (· + 1)).getD (positions definition).length : Nat) =
      addedStepId definition afterStepId - 1 := by
  have width : (positions definition).length = definition.steps.length := by
    rw [numbered.positions_eq, List.length_map, List.length_range]
  unfold addedStepId
  cases afterStepId with
  | none => simp [width]
  | some stepId =>
    rw [Option.bind_some]
    dsimp only
    split_ifs with there
    · obtain ⟨low, high⟩ := numbered.mem_stepIds.mp there
      have found : (positions definition).idxOf? stepId = some (stepId - 1).toNat := by
        rw [numbered.positions_eq]
        refine List.idxOf?_eq_some_iff.mpr ⟨by simp; omega, by simp; omega, fun index below => ?_⟩
        simp
        omega
      rw [found]
      simp
      omega
    · have missing : (positions definition).idxOf? stepId = none :=
        List.idxOf?_eq_none_iff.mpr fun member => there (mem_positions.mp member)
      rw [missing]
      simp [width]

/-- The old steps make room for the new one. -/
theorem getElem?_added {added : Nat} (low : 1 ≤ added) (high : added ≤ definition.steps.length + 1) {index : Nat}
    (inside : index ≤ definition.steps.length) :
    (((positions definition).map some).insertIdx (added - 1) none)[index]? =
      some (if index + 1 = added then none else some (gaveRoom added (index + 1))) := by
  have width : ((positions definition).map some).length = definition.steps.length := by
    rw [numbered.positions_eq, List.length_map, List.length_map, List.length_range]
  have old : ∀ index < definition.steps.length,
      ((positions definition).map some)[index]? = some (some ((index : Int) + 1)) := by
    intro index below
    rw [numbered.positions_eq]
    simp [below]
  rw [List.getElem?_insertIdx]
  unfold gaveRoom
  by_cases before : index < added - 1
  · rw [if_pos before, old index (by omega), if_neg (by omega), if_pos (by omega)]
  · rw [if_neg before]
    by_cases here : index = added - 1
    · rw [if_pos here, if_pos (by omega), if_pos (by omega)]
    · rw [if_neg here, old (index - 1) (by omega), if_neg (by omega), if_neg (by omega)]
      congr 2
      omega

theorem length_added {added : Nat} (high : added ≤ definition.steps.length + 1) :
    (((positions definition).map some).insertIdx (added - 1) none).length = definition.steps.length + 1 := by
  have width : ((positions definition).map some).length = definition.steps.length := by
    rw [numbered.positions_eq, List.length_map, List.length_map, List.length_range]
  rw [List.length_insertIdx_of_le_length (by omega), width]

/-- Where an old step is. -/
theorem place_added {added : Nat} (low : 1 ≤ added) (high : added ≤ definition.steps.length + 1) {stepId : Int}
    (there : stepId ∈ definition.stepIds) :
    place (((positions definition).map some).insertIdx (added - 1) none) stepId = some (madeRoom added stepId) := by
  obtain ⟨least, most⟩ := numbered.mem_stepIds.mp there
  have range : 1 ≤ madeRoom added stepId ∧ madeRoom added stepId ≤ definition.steps.length + 1 := by
    unfold madeRoom
    split_ifs <;> omega
  obtain ⟨index, named⟩ : ∃ index : Nat, madeRoom added stepId = (index : Int) + 1 :=
    ⟨(madeRoom added stepId - 1).toNat, by omega⟩
  have back : gaveRoom added ((index : Int) + 1) = stepId := by rw [← named, gaveRoom_madeRoom]
  have apart : index + 1 ≠ added := fun same => madeRoom_ne added stepId (by rw [named, ← same]; rfl)
  have here := getElem?_added numbered low high (show index ≤ definition.steps.length by omega)
  rw [if_neg apart, back] at here
  obtain ⟨bound, at_⟩ := List.getElem?_eq_some_iff.mp here
  rw [place, named, Option.map_eq_some_iff]
  refine ⟨index, List.findIdx?_eq_some_iff_getElem.mpr ⟨bound, decide_eq_true at_, fun other below => ?_⟩, rfl⟩
  have also := getElem?_added numbered low high (show other ≤ definition.steps.length by omega)
  obtain ⟨_, otherAt⟩ := List.getElem?_eq_some_iff.mp also
  rw [otherAt, decide_eq_true_eq]
  split_ifs
  · exact fun equal => absurd equal (by simp)
  · intro equal
    have same := Option.some.inj equal
    unfold gaveRoom at same back
    split_ifs at same back <;> omega

end Adding

/-- What adding a step makes of a job. -/
structure Added (before after : JobDefinition) (added : Nat) : Prop where
  range : 2 ≤ added ∧ added ≤ before.steps.length + 1
  renumbered : Renumbered before after (((positions before).map some).insertIdx (added - 1) none)
  numbered : Numbered after
  width : after.steps.length = before.steps.length + 1
  /-- The new step falls through on success, unless it is last. -/
  new : ∃ step ∈ after.steps, step.stepId = added ∧ step.onSuccessAction =
    if (added : Int) = after.steps.length then StepAction.QuitWithSuccess else StepAction.GoToNextStep

theorem addStep_added (numbered : Numbered definition) (coherent : Coherent definition) (afterStepId : Option Int) :
    Added definition (addStep definition afterStepId).definition (addedStepId definition afterStepId).toNat := by
  obtain ⟨low, high⟩ := addedStepId_range numbered coherent.starts afterStepId
  have inserted := insertAt_eq numbered afterStepId
  have performs := addStep_performs coherent afterStepId
  unfold Performs at performs
  simp only [StepEdit.plan, StepEdit.apply] at performs
  obtain ⟨nodes, removed, arranged, slots, same⟩ := performs
  have at_ : ((afterStepId.bind (positions definition).idxOf?).map (· + 1)).getD (positions definition).length =
      (addedStepId definition afterStepId).toNat - 1 := by omega
  rw [at_] at slots
  have renumbered := rebuild_renumbered coherent arranged
  rw [slots, ← same] at renumbered
  have length :=
    length_added numbered (show (addedStepId definition afterStepId).toNat ≤ definition.steps.length + 1 by omega)
  have ids := renumbered.numbered
  have width : (addStep definition afterStepId).definition.steps.length = definition.steps.length + 1 := by
    have counted := congrArg List.length ids
    rwa [JobDefinition.stepIds, List.length_map, List.length_map, List.length_range, length] at counted
  refine ⟨⟨by omega, by omega⟩, renumbered, ?_, width, ?_⟩
  · rw [length, ← width] at ids
    exact List.Perm.of_eq ids
  · have slot := getElem?_added numbered (show 1 ≤ (addedStepId definition afterStepId).toNat by omega)
      (show (addedStepId definition afterStepId).toNat ≤ definition.steps.length + 1 by omega)
      (show (addedStepId definition afterStepId).toNat - 1 ≤ definition.steps.length by omega)
    rw [if_pos (by omega), ← slots, List.getElem?_map, Option.map_eq_some_iff] at slot
    obtain ⟨node, here, isNew⟩ := slot
    obtain ⟨inside, same_⟩ := List.getElem?_eq_some_iff.mp here
    have created : node = createdNode definition := by
      rcases arranged.drawn node (List.mem_of_getElem? here) with old | new
      · rw [slotOf_old old] at isNew
        cases isNew
      · exact new
    have count : nodes.length = definition.steps.length + 1 := by
      rw [← length, ← slots, List.length_map]
    refine ⟨(rebuildStep nodes ((addedStepId definition afterStepId).toNat - 1) node).1, ?_, ?_, ?_⟩
    · rw [same, rebuild_steps]
      exact List.mem_mapIdx.mpr ⟨_, inside, by rw [same_]⟩
    · rw [rebuildStep_stepId]
      omega
    · subst created
      have plain : (createdNode definition).step.action true ≠ StepAction.GoToStep := by
        change StepAction.GoToNextStep ≠ StepAction.GoToStep
        decide
      refine (rebuildStep_stays plain).1.trans ?_
      have stays : ¬ Departs (decide ((addedStepId definition afterStepId).toNat - 1 + 1 = nodes.length))
          (createdNode definition).wasLast
          ((createdNode definition).writtenStep nodes ((addedStepId definition afterStepId).toNat - 1)) true := by
        rintro ⟨-, ended, -⟩
        cases ended
      rw [if_neg stays]
      by_cases last : (addedStepId definition afterStepId).toNat - 1 + 1 = nodes.length
      · rw [if_pos ⟨decide_eq_true last, rfl, rfl⟩, if_pos (by omega)]
        rfl
      · rw [if_neg fun arrives => last (of_decide_eq_true arrives.1), if_neg (by omega)]
        rfl

/-! ## What runs next -/

/-- Falling through, with the new step left out: the step before it falls through to the one
after it, and the others go on as they did. -/
private theorem fallsThrough_around {added count : Nat} {stepId : Int} (high : added ≤ count + 1)
    (most : stepId ≤ count) :
    (if (if madeRoom added stepId ≤ count then some (madeRoom added stepId + 1) else none) = some (added : Int)
      then (if (added : Int) ≤ count then some ((added : Int) + 1) else none)
      else (if madeRoom added stepId ≤ count then some (madeRoom added stepId + 1) else none)) =
      (if stepId < count then some (stepId + 1) else none).map (madeRoom added) := by
  by_cases later : stepId < added
  · have room : madeRoom added stepId = stepId := if_pos later
    rw [room, if_pos most]
    by_cases onto : stepId + 1 = added
    · have past : madeRoom added (stepId + 1) = stepId + 1 + 1 := if_neg (by omega)
      rw [if_pos (congrArg some onto)]
      by_cases inside : stepId < count
      · rw [if_pos (show (added : Int) ≤ count by omega), if_pos inside, Option.map_some, past, onto]
      · rw [if_neg (show ¬ (added : Int) ≤ count by omega), if_neg inside, Option.map_none]
    · have past : madeRoom added (stepId + 1) = stepId + 1 := if_pos (by omega)
      rw [if_neg fun same => onto (Option.some.inj same), if_pos (show stepId < count by omega), Option.map_some, past]
  · have room : madeRoom added stepId = stepId + 1 := if_neg later
    have past : madeRoom added (stepId + 1) = stepId + 1 + 1 := if_neg (by omega)
    rw [room]
    by_cases inside : stepId < count
    · have apart : some (stepId + 1 + 1) ≠ some (added : Int) := by
        intro same
        have onto := Option.some.inj same
        omega
      rw [if_pos (show stepId + 1 ≤ count by omega), if_neg apart, if_pos inside, Option.map_some, past]
    · rw [if_neg (show ¬ stepId + 1 ≤ count by omega), if_neg (Option.some_ne_none _).symm, if_neg inside,
        Option.map_none]

namespace Added
variable {before after : JobDefinition} {added : Nat} (edited : Added before after added)
include edited

theorem mem_stepIds {stepId : Int} : stepId ∈ after.stepIds ↔ 1 ≤ stepId ∧ stepId ≤ before.steps.length + 1 := by
  rw [edited.numbered.mem_stepIds, edited.width]
  push_cast
  rfl

/-- The new step goes where the step before it fell through. -/
theorem next_new : (jobFlow after).next added true =
    if (added : Int) ≤ before.steps.length then some ((added : Int) + 1) else none := by
  obtain ⟨low, high⟩ := edited.range
  obtain ⟨step, member, id, action⟩ := edited.new
  have width := edited.width
  rw [← id, jobFlow_next edited.numbered.distinct member]
  unfold nextStepAfter
  have isAction : step.action true = step.onSuccessAction := rfl
  rw [isAction, action]
  by_cases last : (added : Int) = after.steps.length
  · rw [if_pos last, if_neg (by decide), if_neg (by decide), if_neg (by omega)]
  · rw [if_neg last, if_neg (by decide), if_pos rfl, edited.numbered.stepIdAfter_eq (by omega), id]
    congr 1
    exact propext ⟨fun less => by omega, fun less => by omega⟩

/-- A step that falls through goes to the one after it. -/
theorem next_fallsThrough {step : JobStep} (member : step ∈ after.steps) {outcome : Bool}
    (next : step.action outcome = StepAction.GoToNextStep) : nextStepAfter after step outcome =
      if step.stepId ≤ before.steps.length then some (step.stepId + 1) else none := by
  have width := edited.width
  obtain ⟨least, -⟩ := edited.numbered.mem_stepIds.mp (List.mem_map_of_mem member)
  unfold nextStepAfter
  rw [next, if_neg (by decide), if_pos rfl, edited.numbered.stepIdAfter_eq least]
  congr 1
  exact propext ⟨fun less => by omega, fun less => by omega⟩

/-- Where an old step leads in the new job, the new step left out. -/
theorem around_old {new : JobStep} (member : new ∈ after.steps) {stepId : Int}
    (id : new.stepId = madeRoom added stepId) (outcome : Bool) :
    ((jobFlow after).around added).next (madeRoom added stepId) outcome =
      if nextStepAfter after new outcome = some (added : Int)
        then (if (added : Int) ≤ before.steps.length then some ((added : Int) + 1) else none)
        else nextStepAfter after new outcome := by
  rw [← edited.next_new, ← jobFlow_next edited.numbered.distinct member, id]
  unfold Flow.around
  dsimp only
  congr 1
  exact propext (and_iff_right (madeRoom_ne _ _))

/-- What an old step goes to, the new step left out. -/
theorem next_old (numbered : Numbered before) (coherent : Coherent before) {step : JobStep}
    (member : step ∈ before.steps) (outcome : Bool) :
    ((jobFlow after).around added).next (madeRoom added step.stepId) outcome =
      ((jobFlow before).next step.stepId outcome).map (madeRoom added) := by
  obtain ⟨low, high⟩ := edited.range
  have there : step.stepId ∈ before.stepIds := List.mem_map_of_mem member
  obtain ⟨least, most⟩ := numbered.mem_stepIds.mp there
  have placed := place_added numbered (show 1 ≤ added by omega) high there
  obtain ⟨new, inAfter, id, -, branches, -⟩ := edited.renumbered.kept step member _ placed
  have kept := branches outcome
  have slots := length_added numbered high
  rw [edited.around_old inAfter id, jobFlow_next numbered.distinct member]
  by_cases jumps : step.action outcome = StepAction.GoToStep
  · have named := coherent.jumps step member outcome jumps
    obtain ⟨positive, -⟩ := numbered.mem_stepIds.mp named
    obtain ⟨follows, target⟩ := kept.followed _ jumps (place_added numbered (show 1 ≤ added by omega) high named)
    have above : madeRoom added (step.target outcome) ≠ 0 := by
      unfold madeRoom
      split_ifs <;> omega
    have onward : nextStepAfter after new outcome = some (madeRoom added (step.target outcome)) := by
      unfold nextStepAfter
      rw [if_pos follows, target, if_neg above]
    have was : nextStepAfter before step outcome = some (step.target outcome) := by
      unfold nextStepAfter
      rw [if_pos jumps, if_neg (by omega)]
    rw [onward, was, if_neg fun same => madeRoom_ne added _ (Option.some.inj same)]
    rfl
  · have notArrived : ¬ (step.action outcome = StepAction.GoToNextStep ∧
        new.stepId = (((positions before).map some).insertIdx (added - 1) none).length ∧
          ¬ IsLast before step.stepId) := by
      rintro ⟨-, atEnd, notLast⟩
      rw [numbered.isLast_iff there] at notLast
      rw [id, slots] at atEnd
      unfold madeRoom at atEnd
      split_ifs at atEnd <;> omega
    by_cases departs : outcome = true ∧ step.onSuccessAction = StepAction.QuitWithSuccess ∧
        new.onFailAction = StepAction.QuitWithFailure ∧ IsLast before step.stepId ∧
          new.stepId ≠ (((positions before).map some).insertIdx (added - 1) none).length
    · -- The old last step quit, and now runs on into the new one.
      obtain ⟨rfl, quits, fails, last, moved⟩ := departs
      have ended := (numbered.isLast_iff there).mp last
      have onward := edited.next_fallsThrough inAfter (kept.departed rfl quits fails last moved)
      rw [id, slots] at moved
      have atEnd : (added : Int) = before.steps.length + 1 := by
        unfold madeRoom at moved
        split_ifs at moved <;> omega
      have was : nextStepAfter before step true = none := by
        have isAction : step.action true = step.onSuccessAction := rfl
        unfold nextStepAfter
        rw [isAction, quits, if_neg (by decide), if_neg (by decide)]
      have room : madeRoom added step.stepId = before.steps.length := by
        unfold madeRoom
        split_ifs <;> omega
      rw [onward, was, id, room, if_pos (le_refl _), if_pos (by rw [atEnd]), if_neg (by omega)]
      rfl
    · have same := kept.unchanged jumps notArrived departs
      by_cases next : step.action outcome = StepAction.GoToNextStep
      · have was : nextStepAfter before step outcome =
            if step.stepId < before.steps.length then some (step.stepId + 1) else none := by
          unfold nextStepAfter
          rw [if_neg jumps, if_pos next, numbered.stepIdAfter_eq least]
        rw [edited.next_fallsThrough inAfter (same.trans next), was, id]
        exact fallsThrough_around high most
      · have quits : ∀ (definition : JobDefinition) (step : JobStep), step.action outcome ≠ StepAction.GoToStep →
            step.action outcome ≠ StepAction.GoToNextStep → nextStepAfter definition step outcome = none := by
          intro definition step noJump noNext
          unfold nextStepAfter
          rw [if_neg noJump, if_neg noNext]
        rw [quits after new (same.symm ▸ jumps) (same.symm ▸ next), quits before step jumps next, if_neg (by simp)]
        rfl

/-- The old job is the new one with the new step left out, under the old ids. -/
theorem renames (numbered : Numbered before) (coherent : Coherent before) :
    Renames (jobFlow before) ((jobFlow after).around added) (madeRoom added) := by
  obtain ⟨low, high⟩ := edited.range
  constructor
  · have start := edited.renumbered.start
    rw [place_added numbered (by omega) high coherent.starts, Option.getD_some] at start
    exact start
  · intro stepId
    refine Bool.eq_iff_iff.mpr ?_
    change (jobFlow after).present _ = true ↔ _
    rw [jobFlow_present, jobFlow_present, edited.mem_stepIds, numbered.mem_stepIds]
    unfold madeRoom
    split_ifs <;> omega
  · intro stepId outcome present
    obtain ⟨step, member, rfl⟩ := List.mem_map.mp (jobFlow_present.mp present)
    exact edited.next_old numbered coherent member outcome

end Added

/-! ## Runs -/

/-- Old steps have the outcomes in the old job that they have when the new one runs. -/
def Agrees (flow : Flow Int) (added : Int) (oracle original : List Int → Int → Bool) : Prop :=
  ∀ steps past stepId rest, flow.run oracle steps = past ++ stepId :: rest → stepId ≠ added →
    oracle past stepId = original ((past.filter (· ≠ added)).map (gaveRoom added)) (gaveRoom added stepId)

/-- **Adding a step does not change what the old steps do.** If the new step succeeds whenever it is visited, a run
of the edited job is one of the old job, the new step erased and the ids mapped back. -/
theorem addStep_runs (numbered : Numbered definition) (starts : definition.startStepId ∈ definition.stepIds)
    (jumps : ∀ step ∈ definition.steps, ∀ succeeded, step.action succeeded = StepAction.GoToStep →
      step.target succeeded ∈ definition.stepIds) (afterStepId : Option Int) {oracle original : List Int → Int → Bool}
    (succeeds : ∀ past, oracle past (addedStepId definition afterStepId) = true)
    (agrees :
      Agrees (jobFlow (addStep definition afterStepId).definition) (addedStepId definition afterStepId) oracle original)
    {steps long : Nat} (enough : 2 * steps ≤ long) :
    (jobFlow definition).run original steps =
      ((((jobFlow (addStep definition afterStepId).definition).run oracle long).filter
        (· ≠ addedStepId definition afterStepId)).take steps).map (gaveRoom (addedStepId definition afterStepId)) := by
  have coherent : Coherent definition := ⟨numbered.distinct, numbered.positive, starts, jumps⟩
  have edited := addStep_added numbered coherent afterStepId
  obtain ⟨low, high⟩ := edited.range
  have named : (((addedStepId definition afterStepId).toNat : Nat) : Int) =
      addedStepId definition afterStepId := by omega
  have renames := edited.renames numbered coherent
  have next := edited.next_new
  rw [named] at renames next
  generalize addedStepId definition afterStepId = added at *
  let seen (past : List Int) (stepId : Int) : Bool := original (past.map (gaveRoom added)) (gaveRoom added stepId)
  have same : (jobFlow (addStep definition afterStepId).definition).run oracle long =
      (jobFlow (addStep definition afterStepId).definition).run (succeeding seen added) long := by
    refine run_congr fun past stepId rest split => ?_
    by_cases isNew : stepId = added
    · rw [isNew, succeeds]
      exact (if_pos rfl).symm
    · exact (agrees long past stepId rest split isNew).trans (if_neg isNew).symm
  have bypasses : Bypasses (jobFlow (addStep definition afterStepId).definition)
      ((jobFlow (addStep definition afterStepId).definition).around added) added := by
    refine bypasses_around (jobFlow_present.mpr (edited.mem_stepIds.mpr (by omega))) ?_ ?_
    · rw [next]
      split_ifs
      · exact fun equal => absurd (Option.some.inj equal) (by omega)
      · exact fun equal => by cases equal
    · have start : (jobFlow (addStep definition afterStepId).definition).start =
          madeRoom added definition.startStepId :=
        renames.start
      rw [start]
      exact madeRoom_ne added _
  have back : ∀ stepIds : List Int, (stepIds.map (madeRoom added)).map (gaveRoom added) = stepIds := by
    intro stepIds
    rw [List.map_map, show gaveRoom added ∘ madeRoom added = id from funext (gaveRoom_madeRoom added), List.map_id]
  rw [same, ← run_bypass seen bypasses enough, run_rename renames seen steps, back]
  congr 1
  funext past stepId
  change original past stepId =
    original ((past.map (madeRoom added)).map (gaveRoom added)) (gaveRoom added (madeRoom added stepId))
  rw [back, gaveRoom_madeRoom]

/-- A job that begins again when its second step fails. -/
def retryingJob : JobDefinition := sampleJob 1 [
  sampleStep 1 StepAction.GoToNextStep 0 StepAction.QuitWithFailure 0,
  sampleStep 2 StepAction.QuitWithSuccess 0 StepAction.GoToStep 1]

/-- The second step of the sample fails once. A step is added between the two. -/
theorem addStep_runs_retrying :
    let original (past : List Int) (stepId : Int) : Bool := decide (stepId = 1 ∨ 2 ≤ past.length)
    let oracle (past : List Int) (stepId : Int) : Bool :=
      if stepId = 2 then true else original ((past.filter (· ≠ 2)).map (gaveRoom 2)) (gaveRoom 2 stepId)
    (jobFlow (addStep retryingJob (some 1)).definition).run oracle 8 = [1, 2, 3, 1, 2, 3] ∧
      (jobFlow retryingJob).run original 4 =
        ((((jobFlow (addStep retryingJob (some 1)).definition).run oracle 8).filter (· ≠ 2)).take 4).map
          (gaveRoom 2) := by
  intro original oracle
  have numbered : Numbered retryingJob := by decide
  refine ⟨by decide +kernel, ?_⟩
  refine addStep_runs numbered (by decide) (by decide) (some 1) (fun past => if_pos rfl)
    (fun _ past stepId _ _ old => ?_)
    (by decide)
  exact if_neg old

end RemoteSqlAgent
