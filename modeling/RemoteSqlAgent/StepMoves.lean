import RemoteSqlAgent.StepSlides

/-! Moving steps, in the words of the operator. Dragging a step is moving it place by place. Moving a
step and moving it back is no change unless it takes another step to the end of the list and away again,
and what that step says is rewritten on the way. -/
namespace RemoteSqlAgent
open Js ListSlides

variable {definition : JobDefinition} {stepId : Int} {index : Nat}

theorem Tidy.index_of (tidy : Tidy definition) (here : definition.stepIds[index]? = some stepId) :
    stepId = (index : Int) + 1 ∧ index < definition.steps.length ∧ stepId ∈ definition.stepIds := by
  obtain ⟨inside, same⟩ := List.getElem?_eq_some_iff.mp here
  have width : definition.stepIds.length = definition.steps.length := List.length_map _
  have member : stepId ∈ definition.stepIds := same ▸ List.getElem_mem inside
  rw [tidy.numbered] at here
  have known : index < definition.steps.length := width ▸ inside
  simp only [List.getElem?_map, List.getElem?_range known, Option.map_some, Option.some.injEq] at here
  exact ⟨here.symm, known, member⟩

/-! ## Dragging -/

/-- Move a step a number of times in one direction. -/
def moves (definition : JobDefinition) (stepId : Int) (direction : Direction) : Nat → JobDefinition
  | 0 => definition
  | count + 1 => moves (moveStep definition stepId direction).definition (neighbour direction stepId) direction count

/-- Moves in one direction are one move. -/
theorem moves_slid (direction : Direction) (count : Nat) :
    ∀ {definition : JobDefinition} {stepId : Int}, Tidy definition →
    stepId ∈ definition.stepIds → ∀ last < definition.steps.length,
      (if direction = .up then last + count = (stepId - 1).toNat else (stepId - 1).toNat + count = last) →
        Slid (stepId - 1).toNat last definition (moves definition stepId direction count) := by
  induction count with
  | zero =>
    intro definition stepId tidy _ last _ reaches
    have same : (stepId - 1).toNat = last := by
      split_ifs at reaches <;> omega
    rw [same]
    exact Slid.refl tidy last
  | succ count ih =>
    intro definition stepId tidy there last inside reaches
    obtain ⟨low, high⟩ := tidy.mem_stepIds.mp there
    have room : neighbour direction stepId ∈ definition.stepIds := by
      refine tidy.mem_stepIds.mpr ?_
      unfold neighbour
      split_ifs at * <;> omega
    obtain ⟨slid, still⟩ := moveStep_slid tidy there room
    have known := tidy.mem_stepIds.mp room
    have rest := ih still (still.mem_stepIds.mpr (slid.width.symm ▸ known)) last (slid.width.symm ▸ inside) (by
      unfold neighbour
      split_ifs at * <;> omega)
    refine slid.trans rest (by omega) inside fun index below => ?_
    refine slide_between ?_ below (by omega) inside
    unfold neighbour
    split_ifs at * <;> omega

/-- **Dragging a step is moving it place by place**: as often as its place and the one it is dropped at are
apart, in the direction of that one. -/
theorem reorder_eq_moves (tidy : Tidy definition) (here : definition.stepIds[index]? = some stepId)
    (toIndex : JsNumber) :
    (reorderStep definition stepId toIndex).definition =
      moves definition stepId (if clampIndex (definition.steps.length - 1) toIndex < index then .up else .down)
        ((clampIndex (definition.steps.length - 1) toIndex : Int) - index).natAbs := by
  obtain ⟨rfl, inside, there⟩ := tidy.index_of here
  have clamped := clampIndex_le (definition.steps.length - 1) toIndex
  have dragged := reorderStep_slid tidy there toIndex
  have first : ((index : Int) + 1 - 1).toNat = index := by omega
  rw [first] at dragged
  generalize clampIndex (definition.steps.length - 1) toIndex = last at clamped dragged ⊢
  have moved : Slid index last definition (moves definition ((index : Int) + 1) (if last < index then .up else .down)
      ((last : Int) - index).natAbs) := by
    have each :=
      moves_slid (if last < index then .up else .down) ((last : Int) - index).natAbs tidy there last (by omega)
    rw [first] at each
    refine each ?_
    by_cases up : last < index
    · rw [if_pos up, if_pos rfl]
      omega
    · rw [if_neg up, if_neg (by decide)]
      omega
  rcases dragged with slid | ⟨same, rfl⟩
  · exact slid.unique moved inside (by omega)
  · rw [same]
    exact (Slid.refl tidy last).unique moved inside inside

/-- The last step of the sample is dragged to the front. -/
theorem reorder_eq_moves_branching :
    (reorderStep branchingJob 4 (.finite 0)).definition.steps.map (·.target true) = [0, 0, 1, 0] ∧
      (reorderStep branchingJob 4 (.finite 0)).definition = moves branchingJob 4 .up 3 := by
  have tidy : Tidy branchingJob := ⟨by decide, by decide, by decide, by decide⟩
  exact ⟨by decide, reorder_eq_moves tidy (show branchingJob.stepIds[3]? = some 4 by decide) (.finite 0)⟩

/-! ## Moving back -/

/-- A step that is as it was when it came to the end of the list and left it. -/
def Revisits (step : JobStep) : Prop :=
  (step.onSuccessAction = StepAction.GoToNextStep ∧ step.onFailAction = StepAction.QuitWithFailure) ∨
    (step.onSuccessAction ≠ StepAction.GoToNextStep ∧ step.onFailAction ≠ StepAction.GoToNextStep ∧
      ¬ (step.onSuccessAction = StepAction.QuitWithSuccess ∧ step.onFailAction = StepAction.QuitWithFailure))

instance (step : JobStep) : Decidable (Revisits step) := inferInstanceAs (Decidable (_ ∧ _ ∨ _ ∧ _ ∧ ¬ _))

section Ends
variable (step : JobStep)

/-- A step that leaves the end and comes back is as it was, if it did not say that there is a next step. -/
theorem ends_return (plain : ∀ succeeded, step.action succeeded ≠ StepAction.GoToNextStep)
    (noTarget : ∀ succeeded, step.action succeeded ≠ StepAction.GoToStep → step.target succeeded = 0) :
    (applyEndOfListDefaults (applyEndOfListDefaults step false true).1 true false).1 = step := by
  have onSuccess : step.onSuccessAction ≠ StepAction.GoToNextStep := plain true
  have onFail : step.onFailAction ≠ StepAction.GoToNextStep := plain false
  by_cases automatic : step.onSuccessAction = StepAction.QuitWithSuccess ∧
    step.onFailAction = StepAction.QuitWithFailure
  · obtain ⟨quits, fails⟩ := automatic
    have jumpless : step.action true ≠ StepAction.GoToStep := by
      change step.onSuccessAction ≠ _
      rw [quits]
      decide
    have none_ : step.onSuccessStepId = 0 := noTarget true jumpless
    cases step
    simp_all [applyEndOfListDefaults]
  · simp [applyEndOfListDefaults, automatic, onSuccess, onFail]

/-- A step that comes to the end and leaves it is as it was, if what it says is what is written there, or not
touched there. -/
theorem ends_visit (noTarget : ∀ succeeded, step.action succeeded ≠ StepAction.GoToStep → step.target succeeded = 0) :
    (applyEndOfListDefaults (applyEndOfListDefaults step true false).1 false true).1 = step ↔ Revisits step := by
  by_cases onSuccess : step.onSuccessAction = StepAction.GoToNextStep
  · have jumpless : step.action true ≠ StepAction.GoToStep := by
      change step.onSuccessAction ≠ _
      rw [onSuccess]
      decide
    have none_ : step.onSuccessStepId = 0 := noTarget true jumpless
    by_cases onFail : step.onFailAction = StepAction.QuitWithFailure
    · refine iff_of_true ?_ (.inl ⟨onSuccess, onFail⟩)
      cases step
      simp_all [applyEndOfListDefaults]
    · refine iff_of_false (fun same => ?_) fun revisits => ?_
      · by_cases next : step.onFailAction = StepAction.GoToNextStep
        · have fails := congrArg JobStep.onFailAction same
          simp [applyEndOfListDefaults, onSuccess, next] at fails
        · have succeeds := congrArg JobStep.onSuccessAction same
          simp [applyEndOfListDefaults, onSuccess, next, onFail] at succeeds
      · rcases revisits with ⟨-, fails⟩ | ⟨differs, -⟩
        · exact onFail fails
        · exact differs onSuccess
  · by_cases onFail : step.onFailAction = StepAction.GoToNextStep
    · refine iff_of_false (fun same => ?_) fun revisits => ?_
      · have fails := congrArg JobStep.onFailAction same
        by_cases quits : step.onSuccessAction = StepAction.QuitWithSuccess
        · simp [applyEndOfListDefaults, onFail, quits] at fails
        · simp [applyEndOfListDefaults, onSuccess, onFail, quits] at fails
      · rcases revisits with ⟨next, -⟩ | ⟨-, differs, -⟩
        · exact onSuccess next
        · exact differs onFail
    · by_cases automatic : step.onSuccessAction = StepAction.QuitWithSuccess ∧
        step.onFailAction = StepAction.QuitWithFailure
      · refine iff_of_false (fun same => ?_) fun revisits => ?_
        · have succeeds := congrArg JobStep.onSuccessAction same
          simp [applyEndOfListDefaults, automatic] at succeeds
        · rcases revisits with ⟨next, -⟩ | ⟨-, -, differs⟩
          · exact onSuccess next
          · exact differs automatic
      · refine iff_of_true ?_ (.inr ⟨onSuccess, onFail, automatic⟩)
        simp [applyEndOfListDefaults, onSuccess, onFail, automatic]

end Ends

/-- The other direction. -/
def Direction.opposite : Direction → Direction
  | .up => .down
  | .down => .up

/-- A step moved and moved back. -/
def movedBack (definition : JobDefinition) (stepId : Int) (direction : Direction) : JobDefinition :=
  (moveStep (moveStep definition stepId direction).definition (neighbour direction stepId)
    direction.opposite).definition

/-- The step that is last in between, if the last two steps change places, is as it was. -/
def MoveUndone (definition : JobDefinition) (stepId : Int) (direction : Direction) : Prop :=
  stepId = definition.steps.length ∨ neighbour direction stepId = definition.steps.length →
    ∀ step ∈ definition.steps, step.stepId + 1 = definition.steps.length → Revisits step

/-- What a step is after it was settled twice, there and back. -/
def JobStep.revisited (step : JobStep) (isLast wasLast : Bool) : JobStep :=
  (applyEndOfListDefaults (applyEndOfListDefaults step isLast wasLast).1 wasLast isLast).1

section Back
variable {other : Nat}

/-- Nothing but the last two steps may change, and that only if they change places. -/
theorem revisited_iff (tidy : Tidy definition) (inside : index < definition.steps.length)
    (isOther : other < definition.steps.length) (adjacent : index + 1 = other ∨ other + 1 = index)
    (stops : ∀ step ∈ definition.steps, step.stepId = definition.steps.length →
      ∀ succeeded, step.action succeeded ≠ StepAction.GoToNextStep) {at_ : Nat} {step : JobStep}
    (found : definition.steps[at_]? = some step) :
    step.revisited (slide other index at_ + 1 = definition.steps.length) (at_ + 1 = definition.steps.length) = step ↔
      (index + 1 = definition.steps.length ∨ other + 1 = definition.steps.length →
        at_ + 2 = definition.steps.length → Revisits step) := by
  have member := List.mem_of_getElem? found
  have id := tidy.stepId_getElem? found
  have below : at_ < definition.steps.length := (List.getElem?_eq_some_iff.mp found).1
  have idle : ∀ isLast : Bool, step.revisited isLast isLast = step := by
    intro isLast
    cases isLast <;> rfl
  by_cases involved : index + 1 = definition.steps.length ∨ other + 1 = definition.steps.length
  · by_cases isLast : at_ + 1 = definition.steps.length
    · have leaves : ¬ slide other index at_ + 1 = definition.steps.length := by
        unfold slide
        split_ifs <;> omega
      refine iff_of_true ?_ fun _ before => absurd before (by omega)
      rw [decide_eq_true isLast, decide_eq_false leaves]
      exact ends_return step (stops step member (by omega)) fun succeeded => tidy.noTarget step member succeeded
    · by_cases isBefore : at_ + 2 = definition.steps.length
      · have arrives : slide other index at_ + 1 = definition.steps.length := by
          unfold slide
          split_ifs <;> omega
        rw [decide_eq_false isLast, decide_eq_true arrives]
        refine (ends_visit step fun succeeded => tidy.noTarget step member succeeded).trans ?_
        exact ⟨fun revisits _ _ => revisits, fun revisits => revisits involved isBefore⟩
      · have elsewhere : ¬ slide other index at_ + 1 = definition.steps.length := by
          unfold slide
          split_ifs <;> omega
        rw [decide_eq_false isLast, decide_eq_false elsewhere]
        exact iff_of_true (idle false) fun _ before => absurd before isBefore
  · have same : decide (slide other index at_ + 1 = definition.steps.length) =
        decide (at_ + 1 = definition.steps.length) := by
      refine decide_eq_decide.mpr ?_
      unfold slide
      split_ifs <;> omega
    rw [same]
    exact iff_of_true (idle _) fun touched => absurd touched involved

end Back

/-- **A step moved and moved back is not a change** exactly if the last two steps do not change places, or the
step before the last says what the end of the list writes, or nothing that it rewrites. -/
theorem movedBack_iff_undone (tidy : Tidy definition) (here : definition.stepIds[index]? = some stepId)
    {direction : Direction} (room : neighbour direction stepId ∈ definition.stepIds)
    (stops : ∀ step ∈ definition.steps, step.stepId = definition.steps.length →
      ∀ succeeded, step.action succeeded ≠ StepAction.GoToNextStep) :
    movedBack definition stepId direction = definition ↔ MoveUndone definition stepId direction := by
  obtain ⟨rfl, inside, there⟩ := tidy.index_of here
  obtain ⟨low, high⟩ := tidy.mem_stepIds.mp room
  obtain ⟨slid, still⟩ := moveStep_slid tidy there room
  have back : neighbour direction.opposite (neighbour direction ((index : Int) + 1)) = (index : Int) + 1 := by
    unfold neighbour
    cases direction <;> simp [Direction.opposite]
  have known : ∀ stepId ∈ definition.stepIds,
      stepId ∈ (moveStep definition ((index : Int) + 1) direction).definition.stepIds :=
    fun stepId member => still.mem_stepIds.mpr (slid.width.symm ▸ tidy.mem_stepIds.mp member)
  have returns : neighbour direction.opposite (neighbour direction ((index : Int) + 1)) ∈
      (moveStep definition ((index : Int) + 1) direction).definition.stepIds := back.symm ▸ known _ there
  have also := (moveStep_slid still (known _ room) returns).1
  rw [back] at also
  have first : ((index : Int) + 1 - 1).toNat = index := by omega
  obtain ⟨other, named⟩ : ∃ other : Nat, neighbour direction ((index : Int) + 1) = (other : Int) + 1 :=
    ⟨(neighbour direction ((index : Int) + 1) - 1).toNat, by omega⟩
  have second : (neighbour direction ((index : Int) + 1) - 1).toNat = other := by omega
  rw [first, second] at slid also
  have isOther : other < definition.steps.length := by omega
  have adjacent : index + 1 = other ∨ other + 1 = index := by
    unfold neighbour at named
    split_ifs at named <;> omega
  have ends : ((index : Int) + 1 = definition.steps.length ∨
      neighbour direction ((index : Int) + 1) = definition.steps.length) ↔
      (index + 1 = definition.steps.length ∨ other + 1 = definition.steps.length) := by omega
  constructor
  · intro same involved step member isBefore
    have found := tidy.getElem?_of_mem member
    have now := slid.back tidy also inside isOther found
    have whole : (moveStep (moveStep definition ((index : Int) + 1) direction).definition
        (neighbour direction ((index : Int) + 1)) direction.opposite).definition = definition := same
    rw [whole, found] at now
    exact (revisited_iff tidy inside isOther adjacent stops found).mp (Option.some.inj now).symm (ends.mp involved)
      (by omega)
  · intro undone
    refine slid.back_eq tidy also inside isOther fun at_ step found => ?_
    refine (revisited_iff tidy inside isOther adjacent stops found).mpr fun involved isBefore => ?_
    have id := tidy.stepId_getElem? found
    exact undone (ends.mpr involved) step (List.mem_of_getElem? found) (by omega)

/-- The last two steps of the sample change places and back. -/
theorem movedBack_iff_undone_branching : movedBack branchingJob 4 .up = branchingJob := by
  have tidy : Tidy branchingJob := ⟨by decide, by decide, by decide, by decide⟩
  have stops : ∀ step ∈ branchingJob.steps, step.stepId = branchingJob.steps.length →
      ∀ succeeded, step.action succeeded ≠ StepAction.GoToNextStep := by decide
  refine (movedBack_iff_undone tidy (show branchingJob.stepIds[3]? = some 4 by decide) (by decide) stops).mpr ?_
  exact fun _ => by decide

/-- Both steps end the job. -/
def endingJob : JobDefinition := sampleJob 1 [
  sampleStep 1 StepAction.QuitWithSuccess 0 StepAction.QuitWithFailure 0,
  sampleStep 2 StepAction.QuitWithSuccess 0 StepAction.QuitWithFailure 0]

/-- **Counterexample.** A first step that ends the job is moved down and up again, and then it goes to the next
step. -/
theorem ending_runs_on : Tidy endingJob ∧
    (∀ step ∈ endingJob.steps, ∀ succeeded, step.action succeeded ≠ StepAction.GoToNextStep) ∧
      (movedBack endingJob 1 .down).steps.map (·.onSuccessAction) =
        [StepAction.GoToNextStep, StepAction.QuitWithSuccess] ∧
        movedBack endingJob 1 .down ≠ endingJob :=
  ⟨⟨by decide, by decide, by decide, by decide⟩, by decide, by decide, by decide⟩

end RemoteSqlAgent
