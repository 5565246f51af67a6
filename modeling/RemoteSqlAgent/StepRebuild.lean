import RemoteSqlAgent.StepNodes

/-! One step of an edited job. Writing a node back changes nothing but its id
and its branches: a jump follows its target or, when that has gone, falls back,
and the ends of the list rewrite a branch that is not a jump. -/
namespace RemoteSqlAgent
open Js

/-- How a branch with nowhere to go ends the job. -/
def quitting (succeeded : Bool) : Int :=
  if succeeded then StepAction.QuitWithSuccess else StepAction.QuitWithFailure

/-- What becomes of a branch whose target has gone. Only success may run on. -/
def strayed (succeeded hasNext : Bool) : Int :=
  if succeeded && hasNext then StepAction.GoToNextStep else quitting succeeded

/-- A branch written back, given the position its target has. -/
def writtenBack (position : Option Int) (succeeded hasNext : Bool) (action : Int) : Int × Int :=
  if action = StepAction.GoToStep then
    match position with
    | some position => (StepAction.GoToStep, position)
    | none => (strayed succeeded hasNext, 0)
  else (action, 0)

theorem rebuildSuccess_step (nodes : List Node) (hasNext : Bool) (node : Node) (step : JobStep) :
    (rebuildSuccess nodes hasNext node step).1 =
      let written := writtenBack (node.onSuccessTarget.bind (positionOf nodes)) true hasNext
        step.onSuccessAction
      step.withBranch true written.1 written.2 := by
  by_cases jumps : step.onSuccessAction = StepAction.GoToStep
  · simp only [rebuildSuccess, writtenBack, jumps, ↓reduceIte]
    cases node.onSuccessTarget.bind (positionOf nodes) with
    | none => simp [JobStep.withBranch, strayed, quitting]
    | some position => simp [JobStep.withBranch]
  · simp [rebuildSuccess, writtenBack, jumps, JobStep.withBranch]

theorem rebuildFail_step (nodes : List Node) (hasNext : Bool) (node : Node) (step : JobStep) :
    (rebuildFail nodes node step).1 =
      let written := writtenBack (node.onFailTarget.bind (positionOf nodes)) false hasNext
        step.onFailAction
      step.withBranch false written.1 written.2 := by
  by_cases jumps : step.onFailAction = StepAction.GoToStep
  · simp only [rebuildFail, writtenBack, jumps, ↓reduceIte]
    cases node.onFailTarget.bind (positionOf nodes) with
    | none => simp [JobStep.withBranch, strayed, quitting]
    | some position => simp [JobStep.withBranch]
  · simp [rebuildFail, writtenBack, jumps, JobStep.withBranch]

/-- The end-of-list rewrite applies to this branch of a step at the end. -/
def Arrives (isLast wasLast : Bool) (step : JobStep) (succeeded : Bool) : Prop :=
  isLast = true ∧ wasLast = false ∧ step.action succeeded = StepAction.GoToNextStep

/-- The end-of-list rewrite applies to this branch of a step that leaves the end. -/
def Departs (isLast wasLast : Bool) (step : JobStep) (succeeded : Bool) : Prop :=
  isLast = false ∧ wasLast = true ∧ succeeded = true ∧
    step.onSuccessAction = StepAction.QuitWithSuccess ∧ step.onFailAction = StepAction.QuitWithFailure

instance (isLast wasLast : Bool) (step : JobStep) (succeeded : Bool) :
    Decidable (Arrives isLast wasLast step succeeded) := instDecidableAnd

instance (isLast wasLast : Bool) (step : JobStep) (succeeded : Bool) :
    Decidable (Departs isLast wasLast step succeeded) := instDecidableAnd

section Ends
variable (step : JobStep) (isLast wasLast succeeded : Bool)

/-- The end-of-list defaults rewrite exactly the branches that arrive at the
end or depart from it. -/
theorem applyEndOfListDefaults_branch :
    let new := (applyEndOfListDefaults step isLast wasLast).1
    new.action succeeded =
        (if Arrives isLast wasLast step succeeded then quitting succeeded
        else if Departs isLast wasLast step succeeded then StepAction.GoToNextStep
        else step.action succeeded) ∧
      new.target succeeded =
        if Arrives isLast wasLast step succeeded ∨ Departs isLast wasLast step succeeded then 0
        else step.target succeeded := by
  cases isLast <;> cases wasLast
  case false.false => simp [applyEndOfListDefaults, Arrives, Departs]
  case true.true => simp [applyEndOfListDefaults, Arrives, Departs]
  case true.false =>
    simp only [applyEndOfListDefaults, Arrives, Departs, Bool.not_false, Bool.and_self, ↓reduceIte]
    by_cases onSuccess : step.onSuccessAction = StepAction.GoToNextStep <;>
      by_cases onFail : step.onFailAction = StepAction.GoToNextStep <;>
      cases succeeded <;>
      simp [onSuccess, onFail, JobStep.action, JobStep.target, quitting, -List.cons_append]
  case false.true =>
    by_cases automatic : step.onSuccessAction = StepAction.QuitWithSuccess ∧
      step.onFailAction = StepAction.QuitWithFailure
    · cases succeeded <;>
        simp [applyEndOfListDefaults, Arrives, Departs, automatic, JobStep.action, JobStep.target]
    · cases succeeded <;>
        simp [applyEndOfListDefaults, Arrives, Departs, automatic, JobStep.action, JobStep.target]

theorem applyEndOfListDefaults_frame :
    (applyEndOfListDefaults step isLast wasLast).1.content = step.content ∧
      (applyEndOfListDefaults step isLast wasLast).1.stepId = step.stepId := by
  cases isLast <;> cases wasLast
  case false.false => exact ⟨rfl, rfl⟩
  case true.true => exact ⟨rfl, rfl⟩
  case true.false =>
    by_cases onSuccess : step.onSuccessAction = StepAction.GoToNextStep <;>
      by_cases onFail : step.onFailAction = StepAction.GoToNextStep <;>
      simp [applyEndOfListDefaults, onSuccess, onFail, JobStep.content]
  case false.true =>
    by_cases automatic : step.onSuccessAction = StepAction.QuitWithSuccess ∧
      step.onFailAction = StepAction.QuitWithFailure <;>
      simp [applyEndOfListDefaults, automatic, JobStep.content]

end Ends

/-- A node's step with both its branches written back as positions. -/
def Node.writtenStep (nodes : List Node) (index : Nat) (node : Node) : JobStep :=
  let written succeeded := writtenBack ((node.target succeeded).bind (positionOf nodes)) succeeded
    (index + 1 < nodes.length) (node.step.action succeeded)
  ({ node.step with stepId := (index : Int) + 1 }.withBranch true (written true).1
    (written true).2).withBranch false (written false).1 (written false).2

theorem rebuildStep_step (nodes : List Node) (index : Nat) (node : Node) :
    (rebuildStep nodes index node).1 =
      (applyEndOfListDefaults (node.writtenStep nodes index) (index + 1 = nodes.length) node.wasLast).1 := by
  simp only [rebuildStep, rebuildSuccess_step, rebuildFail_step nodes (index + 1 < nodes.length),
    Node.writtenStep]
  rfl

section Written
variable {nodes : List Node} {index : Nat} {node : Node} {succeeded : Bool}

private theorem writtenStep_frame : (node.writtenStep nodes index).content = node.step.content ∧
    (node.writtenStep nodes index).stepId = (index : Int) + 1 := by
  simp only [Node.writtenStep, withBranch_content, withBranch_stepId]
  exact ⟨rfl, trivial⟩

variable (nodes index node succeeded) in
private theorem writtenStep_branch :
    (node.writtenStep nodes index).action succeeded =
        (writtenBack ((node.target succeeded).bind (positionOf nodes)) succeeded
          (index + 1 < nodes.length) (node.step.action succeeded)).1 ∧
      (node.writtenStep nodes index).target succeeded =
        (writtenBack ((node.target succeeded).bind (positionOf nodes)) succeeded
          (index + 1 < nodes.length) (node.step.action succeeded)).2 := by
  cases succeeded <;> simp [Node.writtenStep]

theorem rebuildStep_content : (rebuildStep nodes index node).1.content = node.step.content := by
  rw [rebuildStep_step, (applyEndOfListDefaults_frame ..).1, writtenStep_frame.1]

theorem rebuildStep_stepId : (rebuildStep nodes index node).1.stepId = (index : Int) + 1 := by
  rw [rebuildStep_step, (applyEndOfListDefaults_frame ..).2, writtenStep_frame.2]

/-- A jump whose target survives follows it. -/
theorem rebuildStep_follows {position : Int} (jumps : node.step.action succeeded = StepAction.GoToStep)
    (survives : (node.target succeeded).bind (positionOf nodes) = some position) :
    (rebuildStep nodes index node).1.action succeeded = StepAction.GoToStep ∧
      (rebuildStep nodes index node).1.target succeeded = position := by
  have written := writtenStep_branch nodes index node succeeded
  simp only [writtenBack, jumps, survives, ↓reduceIte] at written
  have stays : ¬Arrives (index + 1 = nodes.length) node.wasLast (node.writtenStep nodes index) succeeded := by
    rintro ⟨-, -, next⟩
    exact absurd (written.1.symm.trans next) (by decide)
  have remains : ¬Departs (index + 1 = nodes.length) node.wasLast (node.writtenStep nodes index) succeeded := by
    rintro ⟨-, -, rfl, quits, -⟩
    exact absurd (written.1.symm.trans quits) (by decide)
  rw [rebuildStep_step, (applyEndOfListDefaults_branch ..).1, (applyEndOfListDefaults_branch ..).2,
    if_neg stays, if_neg remains, if_neg (not_or.mpr ⟨stays, remains⟩)]
  exact written

/-- A jump whose target has gone runs on or quits, and failure always quits. -/
theorem rebuildStep_strays (inside : index < nodes.length)
    (jumps : node.step.action succeeded = StepAction.GoToStep)
    (gone : (node.target succeeded).bind (positionOf nodes) = none) :
    (rebuildStep nodes index node).1.action succeeded = strayed succeeded (index + 1 < nodes.length) ∧
      (rebuildStep nodes index node).1.target succeeded = 0 := by
  have written := writtenStep_branch nodes index node succeeded
  simp only [writtenBack, jumps, gone, ↓reduceIte] at written
  have stays : ¬Arrives (index + 1 = nodes.length) node.wasLast (node.writtenStep nodes index) succeeded := by
    rintro ⟨last, -, next⟩
    have short : ¬index + 1 < nodes.length := by simpa using (of_decide_eq_true last).ge
    rw [written.1, decide_eq_false short] at next
    cases succeeded <;> exact absurd next (by decide)
  have remains : ¬Departs (index + 1 = nodes.length) node.wasLast (node.writtenStep nodes index) succeeded := by
    rintro ⟨notLast, -, rfl, quits, -⟩
    have more : index + 1 < nodes.length := by
      have different : index + 1 ≠ nodes.length := of_decide_eq_false notLast
      omega
    rw [decide_eq_true more] at written
    exact absurd (written.1.symm.trans quits) (by decide)
  rw [rebuildStep_step, (applyEndOfListDefaults_branch ..).1, (applyEndOfListDefaults_branch ..).2,
    if_neg stays, if_neg remains, if_neg (not_or.mpr ⟨stays, remains⟩)]
  exact written

/-- Any other branch stays as it is, the ends of the list apart. -/
theorem rebuildStep_stays (plain : node.step.action succeeded ≠ StepAction.GoToStep) :
    (rebuildStep nodes index node).1.action succeeded =
        (if Arrives (index + 1 = nodes.length) node.wasLast node.step succeeded then quitting succeeded
        else if Departs (index + 1 = nodes.length) node.wasLast (node.writtenStep nodes index) succeeded
        then StepAction.GoToNextStep else node.step.action succeeded) ∧
      (rebuildStep nodes index node).1.target succeeded = 0 := by
  have written := writtenStep_branch nodes index node succeeded
  simp only [writtenBack, plain, ↓reduceIte] at written
  rw [rebuildStep_step, (applyEndOfListDefaults_branch ..).1, (applyEndOfListDefaults_branch ..).2,
    written.1, written.2, ite_self]
  simp only [Arrives, written.1, and_true]

/-- The pairing that marks an automatic ending is read off the step before the
edit on success, and off the rebuilt step on failure. -/
theorem rebuildStep_departs (inside : index < nodes.length) :
    Departs (index + 1 = nodes.length) node.wasLast (node.writtenStep nodes index) succeeded ↔
      succeeded = true ∧ node.step.onSuccessAction = StepAction.QuitWithSuccess ∧
        (rebuildStep nodes index node).1.onFailAction = StepAction.QuitWithFailure ∧
        node.wasLast = true ∧ index + 1 ≠ nodes.length := by
  by_cases last : index + 1 = nodes.length
  · simp [Departs, last]
  have more : index + 1 < nodes.length := by omega
  have onFail : (rebuildStep nodes index node).1.onFailAction =
      (node.writtenStep nodes index).onFailAction := by
    change (rebuildStep nodes index node).1.action false = (node.writtenStep nodes index).action false
    rw [rebuildStep_step, (applyEndOfListDefaults_branch ..).1,
      if_neg fun arrives => last (of_decide_eq_true arrives.1),
      if_neg fun departs => absurd departs.2.2.1 (by decide)]
  have onSuccess : (node.writtenStep nodes index).onSuccessAction = StepAction.QuitWithSuccess ↔
      node.step.onSuccessAction = StepAction.QuitWithSuccess := by
    change (node.writtenStep nodes index).action true = _ ↔ node.step.action true = _
    rw [(writtenStep_branch nodes index node true).1, decide_eq_true more]
    unfold writtenBack
    by_cases jumps : node.step.action true = StepAction.GoToStep
    · rw [if_pos jumps, jumps]
      cases (node.target true).bind (positionOf nodes) <;> simp [strayed]
    · rw [if_neg jumps]
  simp only [Departs, onFail, onSuccess, last, decide_false, ne_eq, not_false_eq_true, true_and, and_true]
  tauto

variable (node succeeded) in
/-- A branch of a rebuilt step is a jump to a position or has no target. -/
theorem rebuildStep_target (inside : index < nodes.length) :
    ((rebuildStep nodes index node).1.action succeeded = StepAction.GoToStep ∧
        (node.target succeeded).bind (positionOf nodes) =
          some ((rebuildStep nodes index node).1.target succeeded)) ∨
      ((rebuildStep nodes index node).1.action succeeded ≠ StepAction.GoToStep ∧
        (rebuildStep nodes index node).1.target succeeded = 0) := by
  by_cases jumps : node.step.action succeeded = StepAction.GoToStep
  · cases survives : (node.target succeeded).bind (positionOf nodes) with
    | some position =>
      obtain ⟨follows, target⟩ := rebuildStep_follows jumps survives
      exact .inl ⟨follows, by rw [target]⟩
    | none =>
      obtain ⟨strays, target⟩ := rebuildStep_strays inside jumps survives
      refine .inr ⟨?_, target⟩
      rw [strays]
      cases succeeded <;> cases decide (index + 1 < nodes.length) <;> decide
  · obtain ⟨stays, target⟩ := rebuildStep_stays jumps
    refine .inr ⟨?_, target⟩
    rw [stays]
    split_ifs
    · cases succeeded <;> decide
    · decide
    · exact jumps

/-- Renumbering never makes a failure run on. -/
theorem rebuildStep_failure (inside : index < nodes.length)
    (stops : node.step.onFailAction ≠ StepAction.GoToNextStep) :
    (rebuildStep nodes index node).1.onFailAction ≠ StepAction.GoToNextStep := by
  change (rebuildStep nodes index node).1.action false ≠ _
  by_cases jumps : node.step.action false = StepAction.GoToStep
  · cases survives : (node.target false).bind (positionOf nodes) with
    | some position =>
      rw [(rebuildStep_follows jumps survives).1]
      decide
    | none =>
      simp [(rebuildStep_strays inside jumps survives).1, strayed, quitting]
  · rw [(rebuildStep_stays jumps).1, if_neg fun arrives => stops arrives.2.2,
      if_neg fun departs => absurd departs.2.2.1 (by decide)]
    exact stops

end Written

end RemoteSqlAgent
