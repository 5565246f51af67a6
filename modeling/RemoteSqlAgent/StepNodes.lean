import RemoteSqlAgent.JobEdit

/-! What an edit knows about a job while it is a list of nodes: every node is a
step of the job, its references are the nodes of the steps they name, and no
two nodes are the same. -/
namespace RemoteSqlAgent
open Js

/-- The ids of a job's steps in step order. -/
def positions (definition : JobDefinition) : List Int :=
  (orderedSteps definition).map (·.stepId)

/-- The last step of a job is the one with the greatest id. -/
def IsLast (definition : JobDefinition) (stepId : Int) : Prop :=
  ∀ other ∈ definition.stepIds, other ≤ stepId

instance (definition : JobDefinition) (stepId : Int) : Decidable (IsLast definition stepId) :=
  List.decidableBAll _ _

/-- The node a branch leads to. -/
def Node.target (node : Node) (succeeded : Bool) : Option Nat :=
  if succeeded then node.onSuccessTarget else node.onFailTarget

variable {definition : JobDefinition}

/-! ## Step order -/

@[simp] theorem mem_orderedSteps {step : JobStep} :
    step ∈ orderedSteps definition ↔ step ∈ definition.steps := mem_sortBy

theorem positions_perm (definition : JobDefinition) :
    (positions definition).Perm definition.stepIds := (sortBy_perm _ _).map _

theorem mem_positions {stepId : Int} :
    stepId ∈ positions definition ↔ stepId ∈ definition.stepIds :=
  (positions_perm definition).mem_iff

/-- Distinct ids stand in strictly increasing order. -/
theorem positions_increasing (distinct : definition.stepIds.Nodup) :
    (positions definition).Pairwise (· < ·) := by
  have sorted : (positions definition).Pairwise (· ≤ ·) :=
    List.pairwise_map.mpr ((sortBy_sorted (consistent_byNumber JobStep.stepId) _).imp fun le => by omega)
  have nodup : (positions definition).Nodup := (positions_perm definition).nodup_iff.mpr distinct
  exact (sorted.and nodup).imp fun ⟨le, ne⟩ => lt_of_le_of_ne le ne

/-- The step at the end of step order is the last one. -/
theorem isLast_iff_index (distinct : definition.stepIds.Nodup) {index : Nat} {step : JobStep}
    (atIndex : (orderedSteps definition)[index]? = some step) :
    IsLast definition step.stepId ↔ index + 1 = (orderedSteps definition).length := by
  have increasing := positions_increasing distinct
  obtain ⟨inside, here⟩ := List.getElem?_eq_some_iff.mp atIndex
  have width : (positions definition).length = (orderedSteps definition).length := List.length_map _
  have id : (positions definition)[index] = step.stepId := by simp [positions, here]
  constructor
  · intro last
    by_contra short
    have later := List.pairwise_iff_getElem.mp increasing index (index + 1) (by omega) (by omega) (by omega)
    have bounded := last _ (mem_positions.mp (List.getElem_mem (by omega : index + 1 < _)))
    omega
  · intro ends other member
    obtain ⟨at_, atInside, rfl⟩ := List.mem_iff_getElem.mp (mem_positions.mpr member)
    by_cases same : at_ = index
    · subst same
      exact id.le
    · have earlier := List.pairwise_iff_getElem.mp increasing at_ index (by omega) (by omega) (by omega)
      omega

/-! ## Numbered jobs -/

/-- The step ids are exactly `1..n`. -/
def Numbered (definition : JobDefinition) : Prop :=
  definition.stepIds.Perm ((List.range definition.steps.length).map fun index : Nat => (index : Int) + 1)

instance (definition : JobDefinition) : Decidable (Numbered definition) :=
  inferInstanceAs (Decidable (List.Perm _ _))

private theorem range_increasing (n : Nat) :
    ((List.range n).map fun index : Nat => (index : Int) + 1).Pairwise (· < ·) :=
  List.pairwise_map.mpr (List.pairwise_lt_range.imp fun less => by omega)

namespace Numbered
variable (numbered : Numbered definition)
include numbered

theorem mem_stepIds {stepId : Int} :
    stepId ∈ definition.stepIds ↔ 1 ≤ stepId ∧ stepId ≤ definition.steps.length := by
  rw [numbered.mem_iff, List.mem_map]
  constructor
  · rintro ⟨index, member, rfl⟩
    have bound := List.mem_range.mp member
    omega
  · rintro ⟨low, high⟩
    exact ⟨(stepId - 1).toNat, List.mem_range.mpr (by omega), by omega⟩

theorem distinct : definition.stepIds.Nodup :=
  numbered.nodup_iff.mpr ((range_increasing _).imp fun less => less.ne)

theorem positive : ∀ stepId ∈ definition.stepIds, 1 ≤ stepId :=
  fun _ member => (numbered.mem_stepIds.mp member).1

theorem isLast_iff {stepId : Int} (there : stepId ∈ definition.stepIds) :
    IsLast definition stepId ↔ stepId = definition.steps.length := by
  have range := numbered.mem_stepIds.mp there
  constructor
  · intro last
    have greatest := last definition.steps.length (numbered.mem_stepIds.mpr ⟨by omega, le_refl _⟩)
    omega
  · rintro rfl other member
    exact (numbered.mem_stepIds.mp member).2

/-- In step order a numbered job's ids are its positions. -/
theorem positions_eq :
    positions definition = (List.range definition.steps.length).map fun index : Nat => (index : Int) + 1 :=
  List.Perm.eq_of_pairwise (fun _ _ _ _ less greater => absurd less (by omega))
    (positions_increasing numbered.distinct) (range_increasing _)
    ((positions_perm definition).trans numbered)

/-- What follows a step by number. -/
theorem stepIdAfter_eq {stepId : Int} (low : 1 ≤ stepId) :
    stepIdAfter definition stepId =
      if stepId < definition.steps.length then some (stepId + 1) else none := by
  split
  · refine stepIdAfter_eq_some.mpr ⟨numbered.mem_stepIds.mpr ⟨by omega, by omega⟩, by omega, ?_⟩
    intro other _ above
    omega
  · refine stepIdAfter_eq_none.mpr fun other member => ?_
    have bound := numbered.mem_stepIds.mp member
    omega

end Numbered

/-! ## Nodes and the steps they stand for -/

/-- The nodes before their references are resolved. -/
private def rawNodes (definition : JobDefinition) : List Node :=
  (orderedSteps definition).mapIdx fun index step =>
    { ident := index, step, onSuccessTarget := none, onFailTarget := none,
      wasLast := index + 1 = (orderedSteps definition).length }

/-- The node a step id names. -/
private def resolve (definition : JobDefinition) (stepId : Int) : Option Nat :=
  (mapGet (fun node : Node => node.step.stepId) (rawNodes definition) stepId).map (·.ident)

private theorem toNodes_eq (definition : JobDefinition) :
    toNodes definition = (rawNodes definition).map fun node => { node with
      onSuccessTarget := if node.step.onSuccessAction = StepAction.GoToStep then
        resolve definition node.step.onSuccessStepId else none
      onFailTarget := if node.step.onFailAction = StepAction.GoToStep then
        resolve definition node.step.onFailStepId else none } := rfl

theorem toNodes_steps (definition : JobDefinition) :
    (toNodes definition).map (·.step) = orderedSteps definition := by
  refine List.ext_getElem ?_ fun index _ _ => ?_ <;> simp [toNodes_eq, rawNodes]

theorem toNodes_idents (definition : JobDefinition) :
    (toNodes definition).map (·.ident) = List.range (orderedSteps definition).length := by
  refine List.ext_getElem ?_ fun index _ _ => ?_ <;> simp [toNodes_eq, rawNodes]

theorem toNodes_stepIds (definition : JobDefinition) :
    (toNodes definition).map (·.step.stepId) = positions definition := by
  rw [positions, ← toNodes_steps, List.map_map]
  rfl

@[simp] theorem length_toNodes (definition : JobDefinition) :
    (toNodes definition).length = (orderedSteps definition).length := by
  rw [← toNodes_steps, List.length_map]

section Members
variable {node other : Node}

theorem step_mem_of_mem_toNodes (member : node ∈ toNodes definition) : node.step ∈ definition.steps :=
  mem_orderedSteps.mp (toNodes_steps definition ▸ List.mem_map_of_mem member)

theorem ident_lt_of_mem_toNodes (member : node ∈ toNodes definition) :
    node.ident < (orderedSteps definition).length :=
  List.mem_range.mp (toNodes_idents definition ▸ List.mem_map_of_mem member)

/-- A step id of the job names a node. -/
theorem exists_node {stepId : Int} (there : stepId ∈ definition.stepIds) :
    ∃ node ∈ toNodes definition, node.step.stepId = stepId := by
  rw [← mem_positions, ← toNodes_stepIds] at there
  exact List.mem_map.mp there

/-- Nodes are told apart by their identity, and by their step ids. -/
theorem eq_of_ident (left : node ∈ toNodes definition) (right : other ∈ toNodes definition)
    (same : node.ident = other.ident) : node = other :=
  List.inj_on_of_nodup_map (by rw [toNodes_idents]; exact List.nodup_range) left right same

theorem eq_of_stepId (distinct : definition.stepIds.Nodup) (left : node ∈ toNodes definition)
    (right : other ∈ toNodes definition) (same : node.step.stepId = other.step.stepId) :
    node = other := by
  have nodup : ((toNodes definition).map (·.step.stepId)).Nodup := by
    rw [toNodes_stepIds]
    exact (positions_perm definition).nodup_iff.mpr distinct
  exact List.inj_on_of_nodup_map nodup left right same

theorem wasLast_iff (distinct : definition.stepIds.Nodup) (member : node ∈ toNodes definition) :
    node.wasLast = true ↔ IsLast definition node.step.stepId := by
  rw [toNodes_eq, rawNodes, List.mem_map] at member
  obtain ⟨raw, rawMember, rfl⟩ := member
  obtain ⟨index, inside, rfl⟩ := List.mem_mapIdx.mp rawMember
  rw [isLast_iff_index distinct (List.getElem?_eq_getElem inside), decide_eq_true_eq]

/-- A `GoToStep` branch is resolved to the node of the step it names. -/
theorem target_eq (distinct : definition.stepIds.Nodup) (left : node ∈ toNodes definition)
    (right : other ∈ toNodes definition) {succeeded : Bool}
    (jumps : node.step.action succeeded = StepAction.GoToStep)
    (named : node.step.target succeeded = other.step.stepId) :
    node.target succeeded = some other.ident := by
  have resolves : resolve definition other.step.stepId = some other.ident := by
    rw [toNodes_eq, List.mem_map] at right
    obtain ⟨raw, rawMember, rfl⟩ := right
    have nodup : ((rawNodes definition).map (·.step.stepId)).Nodup := by
      have same : (rawNodes definition).map (·.step.stepId) = positions definition := by
        rw [← toNodes_stepIds, toNodes_eq, List.map_map]
        rfl
      rw [same]
      exact (positions_perm definition).nodup_iff.mpr distinct
    simp only [resolve, (mapGet_eq_some nodup).mpr ⟨rawMember, rfl⟩, Option.map_some]
  rw [toNodes_eq, List.mem_map] at left
  obtain ⟨raw, rawMember, rfl⟩ := left
  cases succeeded <;>
    simp only [JobStep.action, JobStep.target, Node.target, Bool.false_eq_true, ↓reduceIte]
      at jumps named ⊢ <;>
    rw [if_pos jumps, named, resolves]

end Members

end RemoteSqlAgent
