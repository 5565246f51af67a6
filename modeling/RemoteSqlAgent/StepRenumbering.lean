import RemoteSqlAgent.StepRebuild
import Mathlib.Data.List.ReduceOption
import Mathlib.Data.List.InsertIdx

/-! The edits that move steps are one operation: an arrangement of the old
steps, and perhaps a new one, which is then numbered `1..n`. The arrangement is
planned on ids alone; the edited job follows it, and every reference follows
the step it named. -/
namespace RemoteSqlAgent
open Js

/-! ## Arrangements -/

/-- The place a step takes in an arrangement of old step ids, in which `none`
stands for a step that is new. -/
def place (slots : List (Option Int)) (stepId : Int) : Option Int :=
  (slots.findIdx? (· = some stepId)).map fun index : Nat => (index : Int) + 1

/-- An edit that moves steps. -/
inductive StepEdit where
  | add (afterStepId : Option Int)
  | remove (stepId : Int)
  | move (stepId : Int) (direction : Direction)
  | reorder (stepId : Int) (toIndex : JsNumber)

namespace StepEdit

/-- The call the edit stands for. -/
def apply (definition : JobDefinition) : StepEdit → StepEditResult
  | add afterStepId => addStep definition afterStepId
  | remove stepId => removeStep definition stepId
  | move stepId direction => moveStep definition stepId direction
  | reorder stepId toIndex => reorderStep definition stepId toIndex

/-- The step an edit drops from the job. -/
def drops : StepEdit → Option Int
  | remove stepId => some stepId
  | add _ | move _ _ | reorder _ _ => none

/-- The arrangement an edit asks for, or `none` if it leaves the job alone. -/
def plan (definition : JobDefinition) (edit : StepEdit) : Option (List (Option Int)) :=
  let ids := positions definition
  match edit with
  | add afterStepId =>
    let found := afterStepId.bind ids.idxOf?
    some ((ids.map some).insertIdx ((found.map (· + 1)).getD ids.length) none)
  | remove stepId =>
    if stepId ∈ ids ∧ ids.length ≠ 1 then some ((ids.erase stepId).map some) else none
  | move stepId direction =>
    (ids.idxOf? stepId).bind fun index =>
      let neighbour := if direction = .up then (index : Int) - 1 else (index : Int) + 1
      if neighbour < 0 then none
      else ids[neighbour.toNat]?.map fun other =>
        ((ids.set index other).set neighbour.toNat stepId).map some
  | reorder stepId toIndex =>
    (ids.idxOf? stepId).bind fun index =>
      let destination := clampIndex (ids.length - 1) toIndex
      if destination = index ∧ toIndex ≠ .nan then none
      else some (((ids.erase stepId).insertIdx destination stepId).map some)

end StepEdit

/-! ## What renumbering keeps -/

/-- What becomes of one branch of a step that survives an edit. -/
structure BranchKept (before : JobDefinition) (slots : List (Option Int)) (old new : JobStep)
    (succeeded : Bool) : Prop where
  followed : ∀ position, old.action succeeded = StepAction.GoToStep →
    place slots (old.target succeeded) = some position →
    new.action succeeded = StepAction.GoToStep ∧ new.target succeeded = position
  lost : old.action succeeded = StepAction.GoToStep →
    place slots (old.target succeeded) = none →
    new.action succeeded = strayed succeeded (new.stepId < slots.length)
  /-- A step that arrives at the end has no next step. -/
  arrived : old.action succeeded = StepAction.GoToNextStep →
    new.stepId = slots.length → ¬IsLast before old.stepId → new.action succeeded = quitting succeeded
  /-- A step that quit because it was last runs on when it is not. -/
  departed : succeeded = true → old.onSuccessAction = StepAction.QuitWithSuccess →
    new.onFailAction = StepAction.QuitWithFailure →
    IsLast before old.stepId → new.stepId ≠ slots.length → new.action succeeded = StepAction.GoToNextStep
  unchanged : old.action succeeded ≠ StepAction.GoToStep →
    ¬(old.action succeeded = StepAction.GoToNextStep ∧ new.stepId = slots.length ∧
      ¬IsLast before old.stepId) →
    ¬(succeeded = true ∧ old.onSuccessAction = StepAction.QuitWithSuccess ∧
      new.onFailAction = StepAction.QuitWithFailure ∧ IsLast before old.stepId ∧
      new.stepId ≠ slots.length) →
    new.action succeeded = old.action succeeded

/-- One job is another renumbered by an arrangement of its steps. -/
structure Renumbered (before after : JobDefinition) (slots : List (Option Int)) : Prop where
  numbered : after.stepIds = (List.range slots.length).map fun index : Nat => (index : Int) + 1
  frame : after = { before with steps := after.steps, startStepId := after.startStepId }
  start : after.startStepId = (place slots before.startStepId).getD 1
  startInRange : 1 ≤ after.startStepId ∧ after.startStepId ≤ slots.length
  jumps : ∀ step ∈ after.steps, ∀ succeeded, step.action succeeded = StepAction.GoToStep →
    1 ≤ step.target succeeded ∧ step.target succeeded ≤ slots.length
  noTarget : ∀ step ∈ after.steps, ∀ succeeded, step.action succeeded ≠ StepAction.GoToStep →
    step.target succeeded = 0
  kept : ∀ old ∈ before.steps, ∀ position, place slots old.stepId = some position →
    ∃ new ∈ after.steps, new.stepId = position ∧ new.content = old.content ∧
      (∀ succeeded, BranchKept before slots old new succeeded) ∧
      (old.onFailAction ≠ StepAction.GoToNextStep → new.onFailAction ≠ StepAction.GoToNextStep)

/-! ## Places -/

variable {definition : JobDefinition} {slots : List (Option Int)} {stepId position : Int}

theorem place_range (placed : place slots stepId = some position) :
    1 ≤ position ∧ position ≤ slots.length := by
  rw [place, Option.map_eq_some_iff] at placed
  obtain ⟨index, found, rfl⟩ := placed
  have inside := (List.findIdx?_eq_some_iff_getElem.mp found).1
  omega

theorem place_getElem (placed : place slots stepId = some position) :
    slots[(position - 1).toNat]? = some (some stepId) := by
  rw [place, Option.map_eq_some_iff] at placed
  obtain ⟨index, found, rfl⟩ := placed
  obtain ⟨inside, holds, -⟩ := List.findIdx?_eq_some_iff_getElem.mp found
  have same : ((index : Int) + 1 - 1).toNat = index := by omega
  rw [same, List.getElem?_eq_getElem inside, of_decide_eq_true holds]

/-! ## Rebuilding follows the arrangement -/

/-- The node of the step that `addStep` makes with no options. -/
def createdNode (definition : JobDefinition) : Node where
  ident := (toNodes definition).length
  step := newStepTemplate (nextStepName definition)
  onSuccessTarget := none
  onFailTarget := none
  wasLast := false

/-- The slot a node fills in an arrangement. -/
def slotOf (definition : JobDefinition) (node : Node) : Option Int :=
  if node.ident < (orderedSteps definition).length then some node.step.stepId else none

/-- Every node is one of the job's or the new one. -/
def Drawn (definition : JobDefinition) (nodes : List Node) : Prop :=
  ∀ node ∈ nodes, node ∈ toNodes definition ∨ node = createdNode definition

theorem slotOf_old {node : Node} (old : node ∈ toNodes definition) :
    slotOf definition node = some node.step.stepId := if_pos (ident_lt_of_mem_toNodes old)

theorem slotOf_created : slotOf definition (createdNode definition) = none :=
  if_neg (by simp [createdNode])

/-- A node has the slot of an old one exactly if it is that node. -/
theorem slotOf_eq_some (distinct : definition.stepIds.Nodup) {nodes : List Node}
    (drawn : Drawn definition nodes) {node old : Node} (member : node ∈ nodes)
    (known : old ∈ toNodes definition) :
    slotOf definition node = some old.step.stepId ↔ node = old := by
  rcases drawn node member with here | rfl
  · rw [slotOf_old here, Option.some.injEq]
    exact ⟨eq_of_stepId distinct here known, fun same => same ▸ rfl⟩
  · rw [slotOf_created]
    refine ⟨fun absurd_ => (Option.some_ne_none _ absurd_.symm).elim, ?_⟩
    rintro rfl
    exact absurd (slotOf_old known ▸ slotOf_created) (by simp)

private theorem findIdx?_congr_mem {α : Type} {p q : α → Bool} :
    ∀ {elements : List α}, (∀ a ∈ elements, p a = q a) → elements.findIdx? p = elements.findIdx? q
  | [], _ => rfl
  | a :: rest, agree => by
    rw [List.findIdx?_cons, List.findIdx?_cons, agree a (by simp),
      findIdx?_congr_mem fun b member => agree b (by simp [member])]

theorem positionOf_range {nodes : List Node} {ident : Nat} {position : Int}
    (found : positionOf nodes ident = some position) : 1 ≤ position ∧ position ≤ nodes.length := by
  rw [positionOf, Option.map_eq_some_iff] at found
  obtain ⟨index, found, rfl⟩ := found
  have inside := (List.findIdx?_eq_some_iff_getElem.mp found).1
  omega

/-- A node's position is the place of its step in the arrangement. -/
theorem positionOf_eq_place (distinct : definition.stepIds.Nodup) {nodes : List Node}
    (drawn : Drawn definition nodes) {old : Node} (known : old ∈ toNodes definition) :
    positionOf nodes old.ident = place (nodes.map (slotOf definition)) old.step.stepId := by
  rw [positionOf, place, List.findIdx?_map]
  congr 1
  refine findIdx?_congr_mem fun node member => decide_eq_decide.mpr ?_
  rw [slotOf_eq_some distinct drawn member known]
  constructor
  · intro same
    rcases drawn node member with here | rfl
    · exact eq_of_ident here known same
    · have bound := ident_lt_of_mem_toNodes known
      rw [← same, createdNode, length_toNodes] at bound
      exact absurd bound (lt_irrefl _)
  · rintro rfl
    rfl

/-- Step ids are distinct and positive, and every reference names a step. -/
structure Coherent (definition : JobDefinition) : Prop where
  distinct : definition.stepIds.Nodup
  positive : ∀ stepId ∈ definition.stepIds, 1 ≤ stepId
  starts : definition.startStepId ∈ definition.stepIds
  jumps : ∀ step ∈ definition.steps, ∀ succeeded, step.action succeeded = StepAction.GoToStep →
    step.target succeeded ∈ definition.stepIds

/-- Only the steps and the start step are edited. -/
theorem rebuild_definition (definition : JobDefinition) (nodes removed : List Node) :
    ∃ start, (rebuild definition nodes removed).definition = { definition with
      steps := nodes.mapIdx fun index node => (rebuildStep nodes index node).1
      startStepId := start } := by
  have steps : (nodes.mapIdx (rebuildStep nodes)).map (·.1) =
      nodes.mapIdx fun index node => (rebuildStep nodes index node).1 := by
    refine List.ext_getElem ?_ fun index _ _ => ?_ <;> simp
  unfold rebuild
  dsimp only
  rw [steps]
  cases removed.any fun node => node.step.stepId = definition.startStepId with
  | true => exact ⟨_, rfl⟩
  | false =>
    cases (nodes.find? fun node => decide (node.step.stepId = definition.startStepId)).bind
      fun node => positionOf nodes node.ident with
    | none => exact ⟨_, rfl⟩
    | some position => exact ⟨_, rfl⟩

theorem rebuild_steps (nodes removed : List Node) : (rebuild definition nodes removed).definition.steps =
    nodes.mapIdx fun index node => (rebuildStep nodes index node).1 := by
  obtain ⟨start, shape⟩ := rebuild_definition definition nodes removed
  rw [shape]

/-- What an edit hands over to be rebuilt. -/
structure Arrangement (definition : JobDefinition) (nodes removed : List Node) : Prop where
  drawn : Drawn definition nodes
  nonempty : nodes ≠ []
  /-- The new step is never mistaken for the start step. -/
  first : ∀ node, nodes.find? (fun node => decide (node.step.stepId = definition.startStepId)) =
    some node → node ∈ toNodes definition
  gone : removed.any (fun node => node.step.stepId = definition.startStepId) = true →
    place (nodes.map (slotOf definition)) definition.startStepId = none

theorem rebuild_start (coherent : Coherent definition) {nodes removed : List Node}
    (arranged : Arrangement definition nodes removed) :
    (rebuild definition nodes removed).definition.startStepId =
      (place (nodes.map (slotOf definition)) definition.startStepId).getD 1 := by
  have drawn := arranged.drawn
  have position : ((nodes.find? fun node => decide (node.step.stepId = definition.startStepId)).bind
      fun node => positionOf nodes node.ident) =
        place (nodes.map (slotOf definition)) definition.startStepId := by
    cases found : nodes.find? fun node => decide (node.step.stepId = definition.startStepId) with
    | some node =>
      have same : node.step.stepId = definition.startStepId := by simpa using List.find?_some found
      rw [Option.bind_some, positionOf_eq_place coherent.distinct drawn (arranged.first node found), same]
    | none =>
      obtain ⟨start, known, same⟩ := exists_node coherent.starts
      symm
      rw [Option.bind_none, place, Option.map_eq_none_iff, List.findIdx?_eq_none_iff]
      intro slot member
      obtain ⟨node, here, rfl⟩ := List.mem_map.mp member
      rw [← same, decide_eq_false_iff_not, slotOf_eq_some coherent.distinct drawn here known]
      rintro rfl
      exact absurd same (by simpa using List.find?_eq_none.mp found node here)
  unfold rebuild
  dsimp only
  rw [position]
  cases dropped : removed.any fun node => node.step.stepId = definition.startStepId with
  | true => simp only [arranged.gone dropped, Option.getD_none]
  | false =>
    cases place (nodes.map (slotOf definition)) definition.startStepId <;> rfl

section Rebuilding
variable {nodes : List Node}

/-- The position a resolved branch has is the place of the step it names. -/
theorem target_place (coherent : Coherent definition) (drawn : Drawn definition nodes) {node : Node}
    (known : node ∈ toNodes definition) {succeeded : Bool}
    (jumps : node.step.action succeeded = StepAction.GoToStep) :
    (node.target succeeded).bind (positionOf nodes) =
      place (nodes.map (slotOf definition)) (node.step.target succeeded) := by
  obtain ⟨target, there, named⟩ :=
    exists_node (coherent.jumps _ (step_mem_of_mem_toNodes known) succeeded jumps)
  rw [target_eq coherent.distinct known there jumps named.symm, Option.bind_some,
    positionOf_eq_place coherent.distinct drawn there, named]

/-- Every branch of a rebuilt step of the job is kept. -/
theorem rebuildStep_kept (coherent : Coherent definition) (drawn : Drawn definition nodes)
    {index : Nat} (inside : index < nodes.length) {node : Node} (known : node ∈ toNodes definition)
    (succeeded : Bool) :
    BranchKept definition (nodes.map (slotOf definition)) node.step (rebuildStep nodes index node).1
      succeeded := by
  have last : (rebuildStep nodes index node).1.stepId = (nodes.map (slotOf definition)).length ↔
      index + 1 = nodes.length := by
    rw [rebuildStep_stepId, List.length_map]
    omega
  have wasLast := wasLast_iff coherent.distinct known
  have wasNotLast : node.wasLast = false ↔ ¬IsLast definition node.step.stepId := by
    rw [← wasLast, Bool.not_eq_true]
  constructor
  case followed =>
    intro position jumps placed
    exact rebuildStep_follows jumps (by rw [target_place coherent drawn known jumps, placed])
  case lost =>
    intro jumps placed
    rw [(rebuildStep_strays inside jumps (by rw [target_place coherent drawn known jumps, placed])).1]
    congr 1
    rw [rebuildStep_stepId, List.length_map, decide_eq_decide]
    omega
  case arrived =>
    intro next atEnd notLast
    have plain : node.step.action succeeded ≠ StepAction.GoToStep := by rw [next]; decide
    rw [(rebuildStep_stays plain).1, if_pos ⟨decide_eq_true (last.mp atEnd), wasNotLast.mpr notLast, next⟩]
  case departed =>
    rintro rfl quits fails ended moved
    have plain : node.step.action true ≠ StepAction.GoToStep := by
      change node.step.onSuccessAction ≠ _
      rw [quits]
      decide
    rw [(rebuildStep_stays plain).1,
      if_neg fun arrives => moved (last.mpr (of_decide_eq_true arrives.1)), if_pos]
    exact (rebuildStep_departs inside).mpr
      ⟨rfl, quits, fails, wasLast.mpr ended, fun same => moved (last.mpr same)⟩
  case unchanged =>
    intro plain notArrived notDeparted
    rw [(rebuildStep_stays plain).1, if_neg, if_neg]
    · intro departs
      obtain ⟨onSuccess, quits, fails, ended, moved⟩ := (rebuildStep_departs inside).mp departs
      exact notDeparted ⟨onSuccess, quits, fails, wasLast.mp ended, fun same => moved (last.mp same)⟩
    · rintro ⟨atEnd, notLast, next⟩
      exact notArrived ⟨next, last.mpr (of_decide_eq_true atEnd), wasNotLast.mp notLast⟩

/-- Rebuilding a list of nodes renumbers the job by the arrangement it spells. -/
theorem rebuild_renumbered (coherent : Coherent definition) {removed : List Node}
    (arranged : Arrangement definition nodes removed) :
    Renumbered definition (rebuild definition nodes removed).definition
      (nodes.map (slotOf definition)) := by
  have drawn := arranged.drawn
  have start := rebuild_start coherent arranged
  have member : ∀ step ∈ (rebuild definition nodes removed).definition.steps,
      ∃ index node, index < nodes.length ∧ node ∈ nodes ∧ (rebuildStep nodes index node).1 = step := by
    intro step there
    rw [rebuild_steps] at there
    obtain ⟨index, inside, rfl⟩ := List.mem_mapIdx.mp there
    exact ⟨index, nodes[index], inside, List.getElem_mem inside, rfl⟩
  constructor
  case numbered =>
    rw [JobDefinition.stepIds, rebuild_steps]
    refine List.ext_getElem ?_ fun index _ _ => ?_ <;> simp [rebuildStep_stepId]
  case frame =>
    obtain ⟨position, shape⟩ := rebuild_definition definition nodes removed
    rw [shape]
  case start => exact start
  case startInRange =>
    rw [start]
    cases placed : place (nodes.map (slotOf definition)) definition.startStepId with
    | some position => exact place_range placed
    | none =>
      have positive := List.length_pos_iff.mpr arranged.nonempty
      rw [Option.getD_none, List.length_map]
      omega
  case jumps =>
    intro step there succeeded jumps
    obtain ⟨index, node, inside, here, rfl⟩ := member step there
    rcases rebuildStep_target node succeeded inside with ⟨-, position⟩ | ⟨quits, -⟩
    · obtain ⟨ident, -, at_⟩ := Option.bind_eq_some_iff.mp position
      rw [List.length_map]
      exact positionOf_range at_
    · exact absurd jumps quits
  case noTarget =>
    intro step there succeeded quits
    obtain ⟨index, node, inside, here, rfl⟩ := member step there
    rcases rebuildStep_target node succeeded inside with ⟨jumps, -⟩ | ⟨-, target⟩
    · exact absurd jumps quits
    · exact target
  case kept =>
    intro old there position placed
    obtain ⟨node, known, same⟩ := exists_node (List.mem_map_of_mem there)
    have stands : node.step = old := by
      have nodup : (definition.steps.map (·.stepId)).Nodup := coherent.distinct
      exact List.inj_on_of_nodup_map nodup (step_mem_of_mem_toNodes known) there same
    subst stands
    have range := place_range placed
    rw [List.length_map] at range
    have inside : (position - 1).toNat < nodes.length := by omega
    have here : nodes[(position - 1).toNat] = node := by
      have slot := place_getElem placed
      rw [List.getElem?_map, List.getElem?_eq_getElem inside, Option.map_some, Option.some.injEq] at slot
      exact (slotOf_eq_some coherent.distinct drawn (List.getElem_mem inside) known).mp slot
    refine ⟨(rebuildStep nodes (position - 1).toNat node).1, ?_, ?_, rebuildStep_content,
      rebuildStep_kept coherent drawn inside known, rebuildStep_failure inside⟩
    · rw [rebuild_steps]
      exact List.mem_mapIdx.mpr ⟨_, inside, by rw [here]⟩
    · rw [rebuildStep_stepId]
      omega

end Rebuilding

/-! ## Every edit is an arrangement -/

theorem findIdx?_toNodes (definition : JobDefinition) (stepId : Int) :
    (toNodes definition).findIdx? (fun node => decide (node.step.stepId = stepId)) =
      (positions definition).idxOf? stepId := by
  rw [← toNodes_stepIds, List.idxOf?, List.findIdx?_map]
  rfl

theorem slots_toNodes (definition : JobDefinition) :
    (toNodes definition).map (slotOf definition) = (positions definition).map some := by
  rw [← toNodes_stepIds, List.map_map]
  exact List.map_congr_left fun node member => slotOf_old member

theorem place_eq_none : place slots stepId = none ↔ some stepId ∉ slots := by
  rw [place, Option.map_eq_none_iff, List.findIdx?_eq_none_iff]
  constructor
  · exact fun absent member => absurd (absent _ member) (by simp)
  · exact fun absent slot member => decide_eq_false fun same => absent (same ▸ member)

/-- Steps of the job in any order, none of them removed. -/
theorem arrangement_of_subset {nodes : List Node} (nonempty : nodes ≠ [])
    (old : ∀ node ∈ nodes, node ∈ toNodes definition) : Arrangement definition nodes [] where
  drawn node member := .inl (old node member)
  nonempty := nonempty
  first node found := old node (List.mem_of_find?_eq_some found)
  gone dropped := absurd dropped (by simp)

/-- Rebuilding what an edit hands over is what the edit does. -/
def Performs (definition : JobDefinition) (edit : StepEdit) : Prop :=
  match edit.plan definition with
  | none => (edit.apply definition).definition = definition
  | some slots => ∃ nodes removed, Arrangement definition nodes removed ∧
      nodes.map (slotOf definition) = slots ∧
      (edit.apply definition).definition = (rebuild definition nodes removed).definition

theorem length_positions (definition : JobDefinition) :
    (positions definition).length = (toNodes definition).length := by
  rw [← toNodes_stepIds, List.length_map]

theorem addStep_performs (coherent : Coherent definition) (afterStepId : Option Int) :
    Performs definition (.add afterStepId) := by
  -- The new node never comes first, so an old step with id 1 is found before it.
  obtain ⟨head, tail, nodes⟩ : ∃ head tail, toNodes definition = head :: tail := by
    obtain ⟨node, member, -⟩ := exists_node coherent.starts
    exact List.exists_cons_of_ne_nil (List.ne_nil_of_mem member)
  obtain ⟨index, here⟩ : ∃ index, ((afterStepId.bind (positions definition).idxOf?).map (· + 1)).getD
      (positions definition).length = index + 1 := by
    cases afterStepId.bind (positions definition).idxOf? with
    | some found => exact ⟨found, rfl⟩
    | none => exact ⟨tail.length, by rw [Option.map_none, Option.getD_none, length_positions, nodes]; rfl⟩
  have inserted : (toNodes definition).insertIdx (index + 1) (createdNode definition) =
      head :: tail.insertIdx index (createdNode definition) := by
    rw [nodes, List.insertIdx_succ_cons]
  have drawn : Drawn definition (head :: tail.insertIdx index (createdNode definition)) := by
    intro node member
    rw [nodes]
    rcases List.mem_cons.mp member with rfl | member
    · exact .inl (by simp)
    · rcases List.eq_or_mem_of_mem_insertIdx member with rfl | member
      · exact .inr rfl
      · exact .inl (by simp [member])
  refine ⟨(toNodes definition).insertIdx (index + 1) (createdNode definition), [], ?_, ?_, ?_⟩
  · rw [inserted]
    refine ⟨drawn, by simp, fun node found => ?_, fun dropped => absurd dropped (by simp)⟩
    rcases drawn node (List.mem_of_find?_eq_some found) with old | rfl
    · exact old
    · have least : definition.startStepId = 1 := by
        have same : (createdNode definition).step.stepId = definition.startStepId := by
          simpa using List.find?_some found
        exact same.symm
      have starts : head.step.stepId = definition.startStepId := by
        have member := mem_positions.mpr coherent.starts
        have increasing := positions_increasing coherent.distinct
        have positive := coherent.positive head.step.stepId
          (List.mem_map_of_mem (step_mem_of_mem_toNodes (by simp [nodes])))
        rw [← toNodes_stepIds, nodes, List.map_cons] at member increasing
        rcases List.mem_cons.mp member with same | later
        · exact same.symm
        · have above := List.rel_of_pairwise_cons increasing later
          omega
      rw [List.find?_cons_of_pos (by simpa using starts), Option.some.injEq] at found
      rw [← found, nodes]
      simp
  · rw [List.map_insertIdx, slots_toNodes, slotOf_created, here]
  · have finds : (afterStepId.bind fun requested =>
        (toNodes definition).findIdx? fun node => decide (node.step.stepId = requested)) =
          afterStepId.bind (positions definition).idxOf? := by
      congr 1
      exact funext fun requested => findIdx?_toNodes definition requested
    rw [← here, length_positions, ← finds]
    rfl

theorem removeStep_performs (coherent : Coherent definition) (stepId : Int) :
    Performs definition (.remove stepId) := by
  unfold Performs
  simp only [StepEdit.plan, StepEdit.apply, removeStep, findIdx?_toNodes, length_positions]
  cases found : (positions definition).idxOf? stepId with
  | none =>
    have absent : stepId ∉ positions definition := List.idxOf?_eq_none_iff.mp found
    simp [absent]
  | some index =>
    obtain ⟨inside, here, -⟩ := List.idxOf?_eq_some_iff.mp found
    have there : stepId ∈ positions definition := List.mem_of_getElem here
    by_cases only : (toNodes definition).length = 1
    · simp [only]
    have known : index < (toNodes definition).length := length_positions definition ▸ inside
    have slots : ((toNodes definition).eraseIdx index).map (slotOf definition) =
        ((positions definition).erase stepId).map some := by
      rw [List.erase_eq_eraseIdx, found, ← List.eraseIdx_map, slots_toNodes, List.eraseIdx_map]
    simp only [there, only, ne_eq, not_false_eq_true, and_self, ↓reduceIte]
    refine ⟨(toNodes definition).eraseIdx index, (toNodes definition)[index]?.toList, ⟨?_, ?_, ?_, ?_⟩,
      slots, rfl⟩
    · exact fun node member => .inl (List.mem_of_mem_eraseIdx member)
    · rw [← List.length_pos_iff, List.length_eraseIdx, if_pos known]
      omega
    · exact fun node member =>
        List.mem_of_mem_eraseIdx (List.mem_of_find?_eq_some member)
    · intro dropped
      have same : stepId = definition.startStepId := by
        have atIndex : (toNodes definition)[index].step.stepId = stepId := by
          rw [← here]
          simp only [← toNodes_stepIds, List.getElem_map]
        simpa [List.getElem?_eq_getElem known, atIndex] using dropped
      have nodup : (positions definition).Nodup :=
        (positions_perm definition).nodup_iff.mpr coherent.distinct
      rw [slots, place_eq_none, ← same]
      simp [nodup.mem_erase_iff]

theorem moveStep_performs (stepId : Int) (direction : Direction) :
    Performs definition (.move stepId direction) := by
  unfold Performs
  simp only [StepEdit.plan, StepEdit.apply, moveStep, findIdx?_toNodes]
  cases found : (positions definition).idxOf? stepId with
  | none => simp
  | some index =>
    obtain ⟨inside, here, -⟩ := List.idxOf?_eq_some_iff.mp found
    have known : index < (toNodes definition).length := length_positions definition ▸ inside
    simp only [Option.bind_some]
    generalize (if direction = Direction.up then (index : Int) - 1 else (index : Int) + 1) = neighbour
    by_cases low : neighbour < 0
    · simp [low]
    by_cases high : (toNodes definition).length ≤ neighbour.toNat
    · have past : ((toNodes definition).length : Int) ≤ neighbour := by omega
      have missing : (positions definition)[neighbour.toNat]? = none :=
        List.getElem?_eq_none (by rwa [length_positions])
      simp only [low, missing, past, Option.map_none, or_true, ↓reduceIte]
    have bounded : neighbour.toNat < (toNodes definition).length := by omega
    have within : ¬((toNodes definition).length : Int) ≤ neighbour := by omega
    have width : neighbour.toNat < (positions definition).length := by rwa [length_positions]
    simp only [low, within, or_self, ↓reduceIte, List.getElem?_eq_getElem known,
      List.getElem?_eq_getElem bounded, List.getElem?_eq_getElem width, Option.map_some]
    refine ⟨_, _, arrangement_of_subset ?_ ?_, ?_, rfl⟩
    · rw [← List.length_pos_iff, List.length_set, List.length_set]
      omega
    · intro node member
      rcases List.mem_or_eq_of_mem_set member with member | rfl
      · rcases List.mem_or_eq_of_mem_set member with member | rfl
        · exact member
        · exact List.getElem_mem _
      · exact List.getElem_mem _
    · have slot : ∀ at_ (inNodes : at_ < (toNodes definition).length)
          (inIds : at_ < (positions definition).length),
          slotOf definition (toNodes definition)[at_] = some (positions definition)[at_] := by
        intro at_ inNodes inIds
        rw [slotOf_old (List.getElem_mem inNodes)]
        simp only [← toNodes_stepIds, List.getElem_map]
      rw [List.map_set, List.map_set, slots_toNodes, slot _ known inside, slot _ bounded width, here,
        List.map_set, List.map_set]

theorem clampIndex_le (last : Nat) (toIndex : JsNumber) : clampIndex last toIndex ≤ last := by
  cases toIndex <;> simp only [clampIndex] <;> omega

theorem reorderStep_performs (stepId : Int) (toIndex : JsNumber) :
    Performs definition (.reorder stepId toIndex) := by
  unfold Performs
  simp only [StepEdit.plan, StepEdit.apply, reorderStep, findIdx?_toNodes, length_positions]
  cases found : (positions definition).idxOf? stepId with
  | none => simp
  | some index =>
    obtain ⟨inside, here, -⟩ := List.idxOf?_eq_some_iff.mp found
    have known : index < (toNodes definition).length := length_positions definition ▸ inside
    simp only [Option.bind_some]
    have clamped := clampIndex_le ((toNodes definition).length - 1) toIndex
    generalize clampIndex ((toNodes definition).length - 1) toIndex = destination at clamped ⊢
    by_cases still : destination = index ∧ toIndex ≠ .nan
    · simp [still]
    have slot : slotOf definition (toNodes definition)[index] = some stepId := by
      rw [slotOf_old (List.getElem_mem known), ← here]
      simp only [← toNodes_stepIds, List.getElem_map]
    simp only [still, ↓reduceIte, List.getElem?_eq_getElem known]
    refine ⟨_, _, arrangement_of_subset ?_ ?_, ?_, rfl⟩
    · rw [← List.length_pos_iff, List.length_insertIdx_of_le_length (by
        rwa [List.length_eraseIdx, if_pos known])]
      omega
    · intro node member
      rcases List.eq_or_mem_of_mem_insertIdx member with rfl | member
      · exact List.getElem_mem _
      · exact List.mem_of_mem_eraseIdx member
    · rw [List.map_insertIdx, ← List.eraseIdx_map, slots_toNodes, slot, List.eraseIdx_map,
        List.erase_eq_eraseIdx, found, List.map_insertIdx]

/-- Every edit follows its plan. -/
theorem performs (coherent : Coherent definition) (edit : StepEdit) : Performs definition edit := by
  cases edit with
  | add afterStepId => exact addStep_performs coherent afterStepId
  | remove stepId => exact removeStep_performs coherent stepId
  | move stepId direction => exact moveStep_performs stepId direction
  | reorder stepId toIndex => exact reorderStep_performs stepId toIndex

/-- The steps an edit keeps are the job's steps less the one it drops, each once. -/
theorem plan_survivors (coherent : Coherent definition) {edit : StepEdit}
    (planned : edit.plan definition = some slots) :
    slots.reduceOption.Perm (definition.stepIds.filter fun stepId => edit.drops ≠ some stepId) := by
  have ids := positions_perm definition
  have old : ∀ ids : List Int, (ids.map some).reduceOption = ids := fun ids => by simp [List.reduceOption]
  have all : ∀ ids : List Int, ids.filter (fun stepId => (none : Option Int) ≠ some stepId) = ids :=
    fun ids => by simp
  cases edit with
  | add afterStepId =>
    simp only [StepEdit.plan, Option.some.injEq] at planned
    subst planned
    have inside : ((afterStepId.bind (positions definition).idxOf?).map (· + 1)).getD
        (positions definition).length ≤ ((positions definition).map some).length := by
      rw [List.length_map]
      cases found : afterStepId.bind (positions definition).idxOf? with
      | none => exact le_refl _
      | some index =>
        obtain ⟨stepId, -, here⟩ := Option.bind_eq_some_iff.mp found
        exact (List.idxOf?_eq_some_iff.mp here).1
    rw [StepEdit.drops, all]
    refine ((List.perm_insertIdx none _ inside).filterMap id).trans ?_
    rw [List.filterMap_cons_none rfl]
    exact (List.Perm.of_eq (old _)).trans ids
  | remove stepId =>
    simp only [StepEdit.plan, Option.ite_none_right_eq_some, Option.some.injEq] at planned
    obtain ⟨-, rfl⟩ := planned
    rw [old]
    refine (ids.erase stepId).trans (List.Perm.of_eq ?_)
    rw [coherent.distinct.erase_eq_filter stepId, StepEdit.drops]
    refine List.filter_congr fun other _ => Bool.eq_iff_iff.mpr ?_
    rw [bne_iff_ne, decide_eq_true_iff]
    exact ⟨fun differ same => differ (Option.some.inj same).symm, fun differ same => differ (same ▸ rfl)⟩
  | move stepId direction =>
    simp only [StepEdit.plan, Option.bind_eq_some_iff] at planned
    obtain ⟨index, found, planned⟩ := planned
    obtain ⟨inside, here, -⟩ := List.idxOf?_eq_some_iff.mp found
    generalize (if direction = Direction.up then (index : Int) - 1 else (index : Int) + 1) = neighbour
      at planned
    obtain ⟨-, planned⟩ := Option.ite_none_left_eq_some.mp planned
    obtain ⟨other, there, rfl⟩ := Option.map_eq_some_iff.mp planned
    obtain ⟨bounded, rfl⟩ := List.getElem?_eq_some_iff.mp there
    subst here
    rw [old, StepEdit.drops, all]
    exact (List.set_set_perm inside bounded).trans ids
  | reorder stepId toIndex =>
    simp only [StepEdit.plan, Option.bind_eq_some_iff, Option.ite_none_left_eq_some,
      Option.some.injEq] at planned
    obtain ⟨index, found, -, rfl⟩ := planned
    have there : stepId ∈ positions definition := List.isSome_idxOf?.mp (by rw [found]; rfl)
    have clamped := clampIndex_le ((positions definition).length - 1) toIndex
    rw [old, StepEdit.drops, all]
    refine (List.perm_insertIdx stepId _ ?_).trans ((List.perm_cons_erase there).symm.trans ids)
    rwa [List.length_erase_of_mem there]

/-- An edit that moves steps arranges the steps it keeps and renumbers the job
by that arrangement; an edit with nothing to arrange leaves the job alone. -/
theorem edit_renumbers (coherent : Coherent definition) (edit : StepEdit) :
    match edit.plan definition with
    | none => (edit.apply definition).definition = definition
    | some slots =>
      slots.reduceOption.Perm (definition.stepIds.filter fun stepId => edit.drops ≠ some stepId) ∧
        Renumbered definition (edit.apply definition).definition slots := by
  have performs := performs coherent edit
  unfold Performs at performs
  split
  · rename_i refused
    rwa [refused] at performs
  · rename_i slots planned
    rw [planned] at performs
    obtain ⟨nodes, removed, arranged, rfl, same⟩ := performs
    refine ⟨plan_survivors coherent planned, ?_⟩
    rw [same]
    exact rebuild_renumbered coherent arranged

/-- "Backup" jumps over its error handler and fails into it. -/
def branchingJob : JobDefinition := sampleJob 2 [
  sampleStep 1 StepAction.GoToNextStep 0 StepAction.QuitWithFailure 0,
  sampleStep 2 StepAction.GoToStep 4 StepAction.GoToStep 3,
  sampleStep 3 StepAction.QuitWithFailure 0 StepAction.QuitWithFailure 0,
  sampleStep 4 StepAction.QuitWithSuccess 0 StepAction.QuitWithFailure 0]

theorem edit_renumbers_removing_handler :
    Renumbered branchingJob (removeStep branchingJob 3).definition [some 1, some 2, some 4] := by
  have coherent : Coherent branchingJob := by
    refine ⟨by decide, by decide, by decide, by decide⟩
  have planned : (StepEdit.remove 3).plan branchingJob = some [some 1, some 2, some 4] := by decide
  have edited := edit_renumbers coherent (.remove 3)
  rw [planned] at edited
  exact edited.2

end RemoteSqlAgent
