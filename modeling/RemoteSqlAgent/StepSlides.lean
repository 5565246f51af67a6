import RemoteSqlAgent.ListSlides
import RemoteSqlAgent.StepRenumbering

/-! Moving a step of a tidy job. Both edits that move a step, by one place and to any place, do one
thing: the steps between make room, jumps follow the steps they name, and the ends of the list are
settled once. -/
namespace RemoteSqlAgent
open Js ListSlides

/-- Ids are `1..n` in array order, references name steps, and only jumps have targets. -/
structure Tidy (definition : JobDefinition) : Prop where
  numbered : definition.stepIds = (List.range definition.steps.length).map fun index : Nat => (index : Int) + 1
  jumps : ∀ step ∈ definition.steps, ∀ succeeded, step.action succeeded = StepAction.GoToStep →
    1 ≤ step.target succeeded ∧ step.target succeeded ≤ definition.steps.length
  noTarget : ∀ step ∈ definition.steps, ∀ succeeded, step.action succeeded ≠ StepAction.GoToStep →
    step.target succeeded = 0
  start : 1 ≤ definition.startStepId ∧ definition.startStepId ≤ definition.steps.length

/-- The id a step gets when another is moved, or it is. -/
def shifted (first last : Nat) (stepId : Int) : Int := (slide last first (stepId - 1).toNat : Nat) + 1

/-- A step at an index, its jumps by the new ids. -/
def JobStep.relocated (step : JobStep) (shift : Int → Int) (index : Nat) : JobStep :=
  { step with
    stepId := index + 1
    onSuccessStepId := if step.onSuccessAction = StepAction.GoToStep then shift step.onSuccessStepId else 0
    onFailStepId := if step.onFailAction = StepAction.GoToStep then shift step.onFailStepId else 0 }

/-- The step that stands at an index after a move, made from the one that was moved there. -/
def JobStep.settled (step : JobStep) (shift : Int → Int) (index : Nat) (isLast wasLast : Bool) : JobStep :=
  (applyEndOfListDefaults (step.relocated shift index) isLast wasLast).1

/-- One job is another with the step at one index moved to another. -/
structure Slid (first last : Nat) (before after : JobDefinition) : Prop where
  frame : after = { before with steps := after.steps, startStepId := shifted first last before.startStepId }
  width : after.steps.length = before.steps.length
  steps : ∀ index < before.steps.length, ∀ old, before.steps[slide first last index]? = some old →
    after.steps[index]? = some (old.settled (shifted first last) index (index + 1 = before.steps.length)
      (slide first last index + 1 = before.steps.length))

variable {definition before between after : JobDefinition} {first middle last : Nat}

namespace Tidy
variable (tidy : Tidy definition)
include tidy

theorem stepId_getElem? {index : Nat} {step : JobStep} (here : definition.steps[index]? = some step) :
    step.stepId = (index : Int) + 1 := by
  obtain ⟨inside, rfl⟩ := List.getElem?_eq_some_iff.mp here
  have same : definition.stepIds[index]? = some ((index : Int) + 1) := by
    rw [tidy.numbered]
    simp [inside]
  simpa [JobDefinition.stepIds, inside] using same

theorem getElem?_of_mem {step : JobStep} (member : step ∈ definition.steps) :
    definition.steps[(step.stepId - 1).toNat]? = some step := by
  obtain ⟨index, inside, rfl⟩ := List.mem_iff_getElem.mp member
  have id := tidy.stepId_getElem? (List.getElem?_eq_getElem inside)
  have same : (definition.steps[index].stepId - 1).toNat = index := by omega
  rw [same]
  exact List.getElem?_eq_getElem inside

theorem mem_stepIds {stepId : Int} : stepId ∈ definition.stepIds ↔ 1 ≤ stepId ∧ stepId ≤ definition.steps.length := by
  have numbered : Numbered definition := List.Perm.of_eq tidy.numbered
  exact numbered.mem_stepIds

theorem coherent : Coherent definition where
  distinct := Numbered.distinct (List.Perm.of_eq tidy.numbered)
  positive := fun _ member => (tidy.mem_stepIds.mp member).1
  starts := tidy.mem_stepIds.mpr tidy.start
  jumps := fun step member succeeded jumps => tidy.mem_stepIds.mpr (tidy.jumps step member succeeded jumps)

end Tidy

/-! ## Rebuilding a list of nodes in which one was moved -/

/-- The arrangement of a move. -/
def Spells (slots : List (Option Int)) (count first last : Nat) : Prop :=
  slots.length = count ∧ ∀ index < count, slots[index]? = some (some ((slide first last index : Nat) + 1 : Int))

theorem place_spelled {slots : List (Option Int)} {count : Nat} (spells : Spells slots count first last)
    (isFirst : first < count) (isLast : last < count) {stepId : Int} (low : 1 ≤ stepId) (high : stepId ≤ count) :
    place slots stepId = some (shifted first last stepId) := by
  have inside : slide last first (stepId - 1).toNat < count := slide_lt isLast isFirst (by omega)
  have there := spells.2 _ inside
  rw [slide_slide] at there
  have same : (((stepId - 1).toNat : Nat) : Int) + 1 = stepId := by omega
  rw [same] at there
  rw [place, Option.map_eq_some_iff]
  refine ⟨slide last first (stepId - 1).toNat, ?_, rfl⟩
  obtain ⟨bound, here⟩ := List.getElem?_eq_some_iff.mp there
  refine List.findIdx?_eq_some_iff_getElem.mpr ⟨bound, decide_eq_true here, fun other below => ?_⟩
  have also := spells.2 other (below.trans inside)
  obtain ⟨_, otherHere⟩ := List.getElem?_eq_some_iff.mp also
  rw [otherHere, decide_eq_true_eq]
  intro equal
  have back : slide first last other = (stepId - 1).toNat := by
    have plain := Option.some.inj equal
    omega
  rw [← back, slide_slide] at below
  exact absurd below (lt_irrefl _)

theorem rebuild_slid (tidy : Tidy definition) {nodes : List Node} (arranged : Arrangement definition nodes [])
    (old : ∀ node ∈ nodes, node ∈ toNodes definition) (isFirst : first < definition.steps.length)
    (isLast : last < definition.steps.length)
    (spells : Spells (nodes.map (slotOf definition)) definition.steps.length first last) :
    Slid first last definition (rebuild definition nodes []).definition := by
  have coherent := tidy.coherent
  have width : nodes.length = definition.steps.length := (List.length_map _).symm.trans spells.1
  have renumbered := rebuild_renumbered coherent arranged
  have steps := @rebuild_steps definition nodes []
  refine ⟨?_, ?_, fun index inside step here => ?_⟩
  · have start := renumbered.start
    rw [place_spelled spells isFirst isLast tidy.start.1 tidy.start.2, Option.getD_some] at start
    rw [← start]
    exact renumbered.frame
  · rw [steps, List.length_mapIdx, width]
  · have within : index < nodes.length := width ▸ inside
    have known := old nodes[index] (List.getElem_mem within)
    have slot := spells.2 index inside
    rw [List.getElem?_map, List.getElem?_eq_getElem within, Option.map_some, slotOf_old known] at slot
    have stepId : nodes[index].step.stepId = (slide first last index : Nat) + 1 := by simpa using slot
    have same : nodes[index].step = step := by
      have there := tidy.getElem?_of_mem (step_mem_of_mem_toNodes known)
      rw [stepId] at there
      have plain : ((slide first last index : Int) + 1 - 1).toNat = slide first last index := by omega
      rw [plain, here] at there
      exact (Option.some.inj there).symm
    rw [steps, List.getElem?_mapIdx, List.getElem?_eq_getElem within, Option.map_some, rebuildStep_step]
    have wasLast : nodes[index].wasLast = decide (slide first last index + 1 = definition.steps.length) := by
      refine Bool.eq_iff_iff.mpr ?_
      rw [wasLast_iff coherent.distinct known, decide_eq_true_iff,
        Numbered.isLast_iff (List.Perm.of_eq tidy.numbered)
          (List.mem_map_of_mem (step_mem_of_mem_toNodes known)), stepId]
      omega
    have branches : ∀ succeeded, writtenBack ((nodes[index].target succeeded).bind (positionOf nodes)) succeeded
        (index + 1 < nodes.length) (nodes[index].step.action succeeded) = (nodes[index].step.action succeeded,
          if nodes[index].step.action succeeded = StepAction.GoToStep then
            shifted first last (nodes[index].step.target succeeded) else 0) := by
      intro succeeded
      unfold writtenBack
      by_cases jumps : nodes[index].step.action succeeded = StepAction.GoToStep
      · obtain ⟨low, high⟩ := tidy.jumps _ (step_mem_of_mem_toNodes known) succeeded jumps
        rw [if_pos jumps, if_pos jumps, target_place coherent arranged.drawn known jumps,
          place_spelled spells isFirst isLast low high, jumps]
      · rw [if_neg jumps, if_neg jumps]
    have written : nodes[index].writtenStep nodes index = step.relocated (shifted first last) index := by
      simp only [Node.writtenStep, branches]
      rw [same]
      rfl
    rw [written, wasLast, width]
    rfl

/-- A tidy job stays tidy when a step is moved. -/
theorem rebuild_tidy (tidy : Tidy definition) {nodes : List Node} (arranged : Arrangement definition nodes []) :
    Tidy (rebuild definition nodes []).definition := by
  have renumbered := rebuild_renumbered tidy.coherent arranged
  have same : (rebuild definition nodes []).definition.steps.length = (nodes.map (slotOf definition)).length := by
    rw [rebuild_steps, List.length_mapIdx, List.length_map]
  exact ⟨same ▸ renumbered.numbered, same ▸ renumbered.jumps, renumbered.noTarget, same ▸ renumbered.startInRange⟩

/-! ## The two edits -/

section Edits
variable {stepId : Int}

/-- In a tidy job a step is found by its id. -/
theorem findIdx?_tidy (tidy : Tidy definition) (there : stepId ∈ definition.stepIds) :
    (toNodes definition).findIdx? (fun node => decide (node.step.stepId = stepId)) = some (stepId - 1).toNat := by
  obtain ⟨low, high⟩ := tidy.mem_stepIds.mp there
  have numbered : Numbered definition := List.Perm.of_eq tidy.numbered
  rw [findIdx?_toNodes, numbered.positions_eq]
  refine List.idxOf?_eq_some_iff.mpr ⟨by simp; omega, by simp; omega, fun index below => ?_⟩
  simp
  omega

theorem length_tidy (definition : JobDefinition) : (toNodes definition).length = definition.steps.length := by
  rw [length_toNodes, orderedSteps, length_sortBy]

theorem slots_tidy (tidy : Tidy definition) (index : Nat) (inside : index < definition.steps.length) :
    ((toNodes definition).map (slotOf definition))[index]? = some (some ((index : Int) + 1)) := by
  have numbered : Numbered definition := List.Perm.of_eq tidy.numbered
  rw [slots_toNodes, numbered.positions_eq]
  simp [inside]

/-- An order of the nodes in which one was moved is a move of its step. -/
theorem slid_of_order (tidy : Tidy definition) (isFirst : first < definition.steps.length)
    (isLast : last < definition.steps.length) {nodes : List Node} (width : nodes.length = definition.steps.length)
    (order : ∀ index, nodes[index]? = (toNodes definition)[slide first last index]?) :
    Slid first last definition (rebuild definition nodes []).definition ∧
      Tidy (rebuild definition nodes []).definition := by
  have old : ∀ node ∈ nodes, node ∈ toNodes definition := by
    intro node member
    obtain ⟨index, inside, rfl⟩ := List.mem_iff_getElem.mp member
    have here := order index
    rw [List.getElem?_eq_getElem inside] at here
    exact List.mem_of_getElem? here.symm
  have arranged := arrangement_of_subset (List.ne_nil_of_length_pos (by omega)) old
  refine ⟨rebuild_slid tidy arranged old isFirst isLast ⟨by rw [List.length_map, width], fun index inside => ?_⟩,
    rebuild_tidy tidy arranged⟩
  rw [List.getElem?_map, order, ← List.getElem?_map]
  exact slots_tidy tidy _ (slide_lt isFirst isLast inside)

/-- Where a step goes by one place. -/
def neighbour (direction : Direction) (stepId : Int) : Int := if direction = .up then stepId - 1 else stepId + 1

theorem moveStep_slid (tidy : Tidy definition) (there : stepId ∈ definition.stepIds) {direction : Direction}
    (room : neighbour direction stepId ∈ definition.stepIds) :
    Slid (stepId - 1).toNat (neighbour direction stepId - 1).toNat definition
      (moveStep definition stepId direction).definition ∧
      Tidy (moveStep definition stepId direction).definition := by
  obtain ⟨low, high⟩ := tidy.mem_stepIds.mp there
  obtain ⟨lower, higher⟩ := tidy.mem_stepIds.mp room
  have width := length_tidy definition
  have target : (if direction = .up then ((stepId - 1).toNat : Int) - 1 else ((stepId - 1).toNat : Int) + 1) =
      neighbour direction stepId - 1 := by
    unfold neighbour
    split_ifs <;> omega
  have first : (stepId - 1).toNat < (toNodes definition).length := by omega
  have last : (neighbour direction stepId - 1).toNat < (toNodes definition).length := by omega
  have within : ¬ (neighbour direction stepId - 1 < 0 ∨
      ((toNodes definition).length : Int) ≤ neighbour direction stepId - 1) := by
    omega
  unfold moveStep
  simp only [findIdx?_tidy tidy there, target, within, if_false, List.getElem?_eq_getElem first,
    List.getElem?_eq_getElem last]
  refine slid_of_order tidy (by omega) (by omega) (by rw [List.length_set, List.length_set, width]) fun index => ?_
  refine getElem?_exchange first last ?_ index
  unfold neighbour at *
  split_ifs at * <;> omega

theorem reorderStep_slid (tidy : Tidy definition) (there : stepId ∈ definition.stepIds) (toIndex : JsNumber) :
    Slid (stepId - 1).toNat (clampIndex (definition.steps.length - 1) toIndex) definition
        (reorderStep definition stepId toIndex).definition ∨
      (reorderStep definition stepId toIndex).definition = definition ∧
        clampIndex (definition.steps.length - 1) toIndex = (stepId - 1).toNat := by
  obtain ⟨low, high⟩ := tidy.mem_stepIds.mp there
  have width := length_tidy definition
  have clamped := clampIndex_le (definition.steps.length - 1) toIndex
  have first : (stepId - 1).toNat < (toNodes definition).length := by omega
  unfold reorderStep
  simp only [findIdx?_tidy tidy there, width]
  split
  · rename_i still
    exact .inr ⟨rfl, still.1⟩
  · refine .inl ?_
    rw [List.getElem?_eq_getElem first]
    refine (slid_of_order tidy (by omega) (by omega) ?_ fun index => getElem?_move first (by omega) index).1
    rw [List.length_insertIdx_of_le_length (by rw [List.length_eraseIdx_of_lt first]; omega),
      List.length_eraseIdx_of_lt first]
    omega

end Edits

/-! ## Moves that follow each other -/

section Settling
variable (step : JobStep) (shift other : Int → Int) (index at_ : Nat) (isLast wasLast now : Bool)

/-- The ends of the list do not depend on where jumps go. -/
theorem relocated_ends : (applyEndOfListDefaults (step.relocated shift index) isLast wasLast).1 =
    (applyEndOfListDefaults step isLast wasLast).1.relocated shift index := by
  cases isLast <;> cases wasLast
  case false.false => rfl
  case true.true => rfl
  case true.false =>
    by_cases onSuccess : step.onSuccessAction = StepAction.GoToNextStep <;>
      by_cases onFail : step.onFailAction = StepAction.GoToNextStep <;>
      simp [applyEndOfListDefaults, JobStep.relocated, onSuccess, onFail]
  case false.true =>
    by_cases automatic : step.onSuccessAction = StepAction.QuitWithSuccess ∧
      step.onFailAction = StepAction.QuitWithFailure <;>
      simp [applyEndOfListDefaults, JobStep.relocated, automatic]

theorem relocated_relocated :
    (step.relocated shift index).relocated other at_ = step.relocated (other ∘ shift) at_ := by
  simp only [JobStep.relocated, Function.comp_apply]
  congr 1
  · split_ifs <;> rfl
  · split_ifs <;> rfl

/-- Settling twice is settling once, unless a step comes to the end and leaves it, or leaves it and comes back. -/
theorem settled_settled (once : isLast = wasLast ∨ isLast = now) :
    (step.settled shift index isLast wasLast).settled other at_ now isLast =
      step.settled (other ∘ shift) at_ now wasLast := by
  have idle : ∀ (step : JobStep) (isLast : Bool), (applyEndOfListDefaults step isLast isLast).1 = step := by
    intro step isLast
    cases isLast <;> rfl
  unfold JobStep.settled
  rcases once with rfl | rfl
  · rw [idle, relocated_relocated]
  · rw [idle, relocated_ends, relocated_ends, relocated_relocated]

end Settling

theorem shifted_trans (stepId : Int) :
    shifted middle last (shifted first middle stepId) = shifted first last stepId := by
  unfold shifted
  have plain : ((slide middle first (stepId - 1).toNat : Nat) + 1 - 1 : Int).toNat =
      slide middle first (stepId - 1).toNat := by
    omega
  rw [plain, slide_trans]

theorem shifted_self {stepId : Int} (low : 1 ≤ stepId) : shifted first first stepId = stepId := by
  unfold shifted
  rw [slide_self]
  omega

theorem relocated_self (tidy : Tidy definition) {index : Nat} {step : JobStep}
    (here : definition.steps[index]? = some step) :
    step.relocated (shifted first first) index = step := by
  have member := List.mem_of_getElem? here
  have branches : ∀ succeeded, (if step.action succeeded = StepAction.GoToStep then
      shifted first first (step.target succeeded) else 0) = step.target succeeded := by
    intro succeeded
    split_ifs with jumps
    · exact shifted_self (tidy.jumps step member succeeded jumps).1
    · exact (tidy.noTarget step member succeeded jumps).symm
  refine step_ext (tidy.stepId_getElem? here).symm rfl fun succeeded => Prod.ext ?_ ?_
  · cases succeeded <;> rfl
  · cases succeeded
    · exact branches false
    · exact branches true

namespace Slid

/-- A move decides the job. -/
theorem unique (slid : Slid first last before after) (also : Slid first last before between)
    (isFirst : first < before.steps.length) (isLast : last < before.steps.length) : after = between := by
  have same : after.steps = between.steps := by
    refine List.ext_getElem? fun index => ?_
    by_cases inside : index < before.steps.length
    · have here := List.getElem?_eq_getElem (slide_lt isFirst isLast inside)
      rw [slid.steps index inside _ here, also.steps index inside _ here]
    · rw [List.getElem?_eq_none (by rw [slid.width]; omega), List.getElem?_eq_none (by rw [also.width]; omega)]
  rw [slid.frame, also.frame, same]

/-- Nothing is moved when a step is moved to where it is. -/
theorem refl (tidy : Tidy definition) (first : Nat) : Slid first first definition definition := by
  refine ⟨?_, rfl, fun index inside step here => ?_⟩
  · rw [shifted_self tidy.start.1]
  · rw [slide_self] at here ⊢
    rw [JobStep.settled, relocated_self tidy here, here]
    cases decide (index + 1 = definition.steps.length) <;> rfl

/-- Two moves of one step are one, if no step comes to the end and leaves it, or leaves it and comes back. -/
theorem trans (slid : Slid first middle before between) (also : Slid middle last between after)
    (isMiddle : middle < before.steps.length) (isLast : last < before.steps.length)
    (once : ∀ index < before.steps.length,
      (slide middle last index + 1 = before.steps.length ↔ slide first last index + 1 = before.steps.length) ∨
        (slide middle last index + 1 = before.steps.length ↔ index + 1 = before.steps.length)) :
    Slid first last before after := by
  have shift : shifted middle last ∘ shifted first middle = shifted first last := funext shifted_trans
  refine ⟨?_, also.width.trans slid.width, fun index inside old here => ?_⟩
  · have frame := also.frame
    rw [slid.frame] at frame
    rw [frame, ← shift]
    rfl
  · have within : slide middle last index < before.steps.length := slide_lt isMiddle isLast inside
    have moved := slid.steps (slide middle last index) within old (by rw [slide_trans]; exact here)
    have again := also.steps index (slid.width ▸ inside) _ moved
    rw [slide_trans] at again
    rw [again, slid.width, settled_settled, shift]
    refine (once index inside).imp (fun same => ?_) fun same => ?_
    · exact decide_eq_decide.mpr same
    · exact decide_eq_decide.mpr same

/-- A step moved and moved back. Each step was settled twice. -/
theorem back (tidy : Tidy before) (slid : Slid first last before between) (also : Slid last first between after)
    (isFirst : first < before.steps.length) (isLast : last < before.steps.length) {index : Nat} {step : JobStep}
    (here : before.steps[index]? = some step) :
    after.steps[index]? = some (applyEndOfListDefaults (applyEndOfListDefaults step
        (slide last first index + 1 = before.steps.length) (index + 1 = before.steps.length)).1
      (index + 1 = before.steps.length) (slide last first index + 1 = before.steps.length)).1 := by
  have inside : index < before.steps.length := (List.getElem?_eq_some_iff.mp here).1
  have moved :=
    slid.steps (slide last first index) (slide_lt isLast isFirst inside) step (by rw [slide_slide]; exact here)
  have again := also.steps index (slid.width ▸ inside) _ moved
  have home : shifted last first ∘ shifted first last = shifted first first := funext shifted_trans
  rw [slide_slide] at again
  rw [again, slid.width, JobStep.settled, JobStep.settled, relocated_ends, relocated_ends, relocated_ends,
    relocated_relocated, home,
    ← relocated_ends, ← relocated_ends, relocated_self tidy here]

/-- A step moved and moved back is no change if no step is settled to anything else. -/
theorem back_eq (tidy : Tidy before) (slid : Slid first last before between) (also : Slid last first between after)
    (isFirst : first < before.steps.length) (isLast : last < before.steps.length)
    (each : ∀ index step, before.steps[index]? = some step →
      (applyEndOfListDefaults (applyEndOfListDefaults step
          (slide last first index + 1 = before.steps.length) (index + 1 = before.steps.length)).1
        (index + 1 = before.steps.length) (slide last first index + 1 = before.steps.length)).1 = step) :
    after = before := by
  have steps : after.steps = before.steps := by
    refine List.ext_getElem? fun index => ?_
    by_cases inside : index < before.steps.length
    · have here := List.getElem?_eq_getElem inside
      rw [slid.back tidy also isFirst isLast here, each index _ here, here]
    · rw [List.getElem?_eq_none (by rw [also.width, slid.width]; omega), List.getElem?_eq_none (by omega)]
  have frame := also.frame
  rw [slid.frame, steps] at frame
  rw [frame]
  change { before with startStepId := shifted last first (shifted first last before.startStepId) } = before
  rw [shifted_trans, shifted_self tidy.start.1]

end Slid

end RemoteSqlAgent
