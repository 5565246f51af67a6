import RemoteSqlAgent.JobFlow

/-! Structural edits to a job's step list. Step ids are positions, so the edits
that move steps resolve references to nodes first, restructure the list of
nodes, and write the references back as positions; switching a step off or on
rewires branches and leaves every position alone. -/
namespace RemoteSqlAgent
open Js

structure StepEditResult where
  definition : JobDefinition
  /-- Reference repairs the operator should be told about. -/
  warnings : List JsString

/-- The direction `moveStep` takes. -/
inductive Direction where
  | up | down
  deriving DecidableEq

/-! ## Nodes -/

/-- A step with its references resolved. `ident` stands for the identity of the
node object: the nodes of a job are created in position order, and the node
`addStep` creates comes after all of them. -/
structure Node where
  ident : Nat
  step : JobStep
  onSuccessTarget : Option Nat
  onFailTarget : Option Nat
  /-- Was this the last step before the edit? -/
  wasLast : Bool

/-- The job's steps in position order. -/
def orderedSteps (definition : JobDefinition) : List JobStep :=
  sortBy (fun a b => a.stepId - b.stepId) definition.steps

def toNodes (definition : JobDefinition) : List Node :=
  let ordered := orderedSteps definition
  let nodes := ordered.mapIdx fun index step =>
    { ident := index, step, onSuccessTarget := none, onFailTarget := none,
      wasLast := index + 1 = ordered.length : Node }
  let byStepId := mapGet (fun node : Node => node.step.stepId) nodes
  nodes.map fun node => { node with
    onSuccessTarget :=
      if node.step.onSuccessAction = StepAction.GoToStep then
        (byStepId node.step.onSuccessStepId).map (·.ident)
      else none
    onFailTarget :=
      if node.step.onFailAction = StepAction.GoToStep then
        (byStepId node.step.onFailStepId).map (·.ident)
      else none }

/-- The position a node has in the edited list, if it survives. -/
def positionOf (nodes : List Node) (ident : Nat) : Option Int :=
  (nodes.findIdx? fun node => node.ident = ident).map fun index : Nat => (index : Int) + 1

/-- `Step ${step.stepId} "${step.name}"`. -/
def stepLabel (step : JobStep) : JsString :=
  js "Step " ++ decimal step.stepId ++ js " \"" ++ step.name ++ js "\""

/-- Keep the ends of the list sensible as steps move in and out of them. -/
def applyEndOfListDefaults (step : JobStep) (isLast wasLast : Bool) : JobStep × List JsString :=
  if isLast && !wasLast then
    let (step, first) :=
      if step.onSuccessAction = StepAction.GoToNextStep then
        ({ step with onSuccessAction := StepAction.QuitWithSuccess, onSuccessStepId := 0 },
          [stepLabel step ++ js (" is now last, so on success it quits reporting " ++
            "success rather than going to a next step that does not exist.")])
      else (step, [])
    let (step, second) :=
      if step.onFailAction = StepAction.GoToNextStep then
        ({ step with onFailAction := StepAction.QuitWithFailure, onFailStepId := 0 },
          [stepLabel step ++ js " is now last, so on failure it quits reporting failure."])
      else (step, [])
    (step, first ++ second)
  else if wasLast && !isLast then
    -- Only the automatic pairing, both halves together.
    if step.onSuccessAction = StepAction.QuitWithSuccess ∧
        step.onFailAction = StepAction.QuitWithFailure then
      ({ step with onSuccessAction := StepAction.GoToNextStep, onSuccessStepId := 0 },
        [stepLabel step ++ js (" is no longer last, so on success it now goes to the " ++
          "next step. On failure it still quits, so a failure here does not run what follows.")])
    else (step, [])
  else (step, [])

/-- Write a node's success reference back as a position. -/
def rebuildSuccess (nodes : List Node) (hasNext : Bool) (node : Node) (step : JobStep) :
    JobStep × List JsString :=
  if step.onSuccessAction = StepAction.GoToStep then
    match node.onSuccessTarget.bind (positionOf nodes) with
    | some position => ({ step with onSuccessStepId := position }, [])
    | none =>
      ({ step with
          onSuccessAction := if hasNext then StepAction.GoToNextStep else StepAction.QuitWithSuccess
          onSuccessStepId := 0 },
        [stepLabel step ++ js " pointed at a step that no longer exists on success; it now " ++
          js (if hasNext then "goes to the next step" else "quits reporting success") ++ js "."])
  else ({ step with onSuccessStepId := 0 }, [])

/-- Write a node's failure reference back as a position. A branch whose handler
has gone stops the job. -/
def rebuildFail (nodes : List Node) (node : Node) (step : JobStep) : JobStep × List JsString :=
  if step.onFailAction = StepAction.GoToStep then
    match node.onFailTarget.bind (positionOf nodes) with
    | some position => ({ step with onFailStepId := position }, [])
    | none =>
      ({ step with onFailAction := StepAction.QuitWithFailure, onFailStepId := 0 },
        [stepLabel step ++ js (" pointed at a step that no longer exists on failure; " ++
          "it now quits reporting failure.")])
  else ({ step with onFailStepId := 0 }, [])

/-- The step a node becomes at this index of the edited list. -/
def rebuildStep (nodes : List Node) (index : Nat) (node : Node) : JobStep × List JsString :=
  let (step, onSuccess) := rebuildSuccess nodes (index + 1 < nodes.length) node
    { node.step with stepId := (index : Int) + 1 }
  let (step, onFail) := rebuildFail nodes node step
  let (step, ends) := applyEndOfListDefaults step (index + 1 = nodes.length) node.wasLast
  (step, onSuccess ++ onFail ++ ends)

/-- Renumber `1..n` by position and write the references back as step ids. -/
def rebuild (definition : JobDefinition) (nodes removed : List Node) : StepEditResult :=
  let rebuilt := nodes.mapIdx (rebuildStep nodes)
  let steps := rebuilt.map (·.1)
  let warnings := rebuilt.flatMap (·.2)
  let startNode := nodes.find? fun node => decide (node.step.stepId = definition.startStepId)
  let removedStart := removed.any fun node => node.step.stepId = definition.startStepId
  match removedStart, startNode.bind fun node => positionOf nodes node.ident with
  | false, some position =>
    ⟨{ definition with steps, startStepId := position }, warnings⟩
  | true, _ =>
    ⟨{ definition with steps, startStepId := 1 },
      warnings ++ [js "The job started at the step you removed, so it now starts at step 1."]⟩
  | false, none => ⟨{ definition with steps, startStepId := 1 }, warnings⟩

/-! ## Adding, removing and moving -/

/-- A new step with the defaults of the New Job Step dialog. -/
def newStepTemplate (name : JsString) : JobStep where
  stepId := 1
  name := name
  subsystem := .TSQL
  command := []
  databaseName := some (js "master")
  databaseUserName := none
  onSuccessAction := StepAction.GoToNextStep
  onSuccessStepId := 0
  -- A new step that errors must not fall through to whatever comes next.
  onFailAction := StepAction.QuitWithFailure
  onFailStepId := 0
  retryAttempts := 0
  retryIntervalMinutes := 0
  outputFileName := none
  flags := 0
  proxyName := none

def numberedName (n : Nat) : JsString := js "Step " ++ decimal n

/-- The first number from `n` on whose name is free, tried at most `fuel` times. -/
def firstFree (taken : List JsString) : Nat → Nat → Nat
  | 0, n => n
  | fuel + 1, n => if numberedName n ∈ taken then firstFree taken fuel (n + 1) else n

/-- "Step 4", avoiding a name already in use. -/
def nextStepName (definition : JobDefinition) : JsString :=
  let taken := definition.steps.map (·.name)
  numberedName (firstFree taken (taken.length + 1) (taken.length + 1))

/-- Insert a step after `afterStepId`, or at the end when that is `none` or
names no step. `overrides` is the spread of `options.step` over the template. -/
def addStep (definition : JobDefinition) (afterStepId : Option Int)
    (overrides : JobStep → JobStep := id) : StepEditResult :=
  let nodes := toNodes definition
  let created : Node :=
    { ident := nodes.length, step := overrides (newStepTemplate (nextStepName definition)),
      onSuccessTarget := none, onFailTarget := none, wasLast := false }
  let found := afterStepId.bind fun requested =>
    nodes.findIdx? fun node => node.step.stepId = requested
  let insertAt := (found.map (· + 1)).getD nodes.length
  let warnings := match afterStepId, found with
    | some requested, none => [js "There is no step " ++ decimal requested ++
        js ", so the new step was added at the end."]
    | _, _ => []
  let result := rebuild definition (nodes.insertIdx insertAt created) []
  { result with warnings := warnings ++ result.warnings }

/-- Remove a step, repairing anything that pointed at it. -/
def removeStep (definition : JobDefinition) (stepId : Int) : StepEditResult :=
  let nodes := toNodes definition
  match nodes.findIdx? fun node => node.step.stepId = stepId with
  | none => ⟨definition, []⟩
  | some index =>
    if nodes.length = 1 then
      ⟨definition, [js "A job must keep at least one step, so this one was not removed."]⟩
    else rebuild definition (nodes.eraseIdx index) nodes[index]?.toList

/-- Move a step one position earlier or later, preserving every reference. -/
def moveStep (definition : JobDefinition) (stepId : Int) (direction : Direction) : StepEditResult :=
  let nodes := toNodes definition
  match nodes.findIdx? fun node => node.step.stepId = stepId with
  | none => ⟨definition, []⟩
  | some index =>
    let target : Int := if direction = .up then (index : Int) - 1 else (index : Int) + 1
    if target < 0 ∨ (nodes.length : Int) ≤ target then ⟨definition, []⟩
    else
      match nodes[index]?, nodes[target.toNat]? with
      | some moved, some other =>
        rebuild definition ((nodes.set index other).set target.toNat moved) []
      | _, _ => ⟨definition, []⟩

/-- `Math.max(0, Math.min(last, Math.trunc(toIndex)))`, and where `splice`
inserts when that is `NaN`. -/
def clampIndex (last : Nat) : JsNumber → Nat
  | .nan => 0
  | .negInfinity => 0
  | .posInfinity => last
  | .finite value => (max 0 (min (last : Int) (trunc value))).toNat

/-- Move a step to an absolute position, preserving every reference. -/
def reorderStep (definition : JobDefinition) (stepId : Int) (toIndex : JsNumber) : StepEditResult :=
  let nodes := toNodes definition
  match nodes.findIdx? fun node => node.step.stepId = stepId with
  | none => ⟨definition, []⟩
  | some from_ =>
    let destination := clampIndex (nodes.length - 1) toIndex
    -- `NaN === from` is never true, so a `NaN` destination is not recognised as
    -- the place the step already has.
    if destination = from_ ∧ toIndex ≠ .nan then ⟨definition, []⟩
    else
      match nodes[from_]? with
      | none => ⟨definition, []⟩
      | some moved => rebuild definition ((nodes.eraseIdx from_).insertIdx destination moved) []

/-! ## Switching off and on -/

/-- A step with one branch replaced. -/
def JobStep.withBranch (step : JobStep) (succeeded : Bool) (action target : Int) : JobStep :=
  if succeeded then { step with onSuccessAction := action, onSuccessStepId := target }
  else { step with onFailAction := action, onFailStepId := target }

/-- The part of a step that is not control flow. -/
def JobStep.content (step : JobStep) : JobStep :=
  { step with stepId := 0, onSuccessAction := 0, onSuccessStepId := 0, onFailAction := 0, onFailStepId := 0 }

section Branches
variable (step : JobStep) (succeeded other : Bool) (action target : Int)

@[simp] theorem withBranch_content : (step.withBranch succeeded action target).content = step.content := by
  cases succeeded <;> rfl

@[simp] theorem withBranch_stepId : (step.withBranch succeeded action target).stepId = step.stepId := by
  cases succeeded <;> rfl

@[simp] theorem withBranch_action : (step.withBranch succeeded action target).action other =
    if other = succeeded then action else step.action other := by
  cases succeeded <;> cases other <;> rfl

@[simp] theorem withBranch_target : (step.withBranch succeeded action target).target other =
    if other = succeeded then target else step.target other := by
  cases succeeded <;> cases other <;> rfl

end Branches

/-- A step is its id, its branches and the rest. -/
theorem step_ext {first second : JobStep} (sameId : first.stepId = second.stepId)
    (same : first.content = second.content)
    (branches : ∀ succeeded, (first.action succeeded, first.target succeeded) =
      (second.action succeeded, second.target succeeded)) : first = second := by
  have onSuccess := branches true
  have onFail := branches false
  cases first
  cases second
  simp_all [JobStep.content, JobStep.action, JobStep.target]

/-- Does this branch of `s` arrive at the step being switched off? -/
def arrivesHere (definition : JobDefinition) (stepId : Int) (s : JobStep) (succeeded : Bool) : Bool :=
  (s.action succeeded = StepAction.GoToStep ∧ s.target succeeded = stepId) ∨
    (s.action succeeded = StepAction.GoToNextStep ∧
      nextStepAfter definition s succeeded = some stepId)

/-- Send a branch where traffic aimed at the disabled step should go instead. -/
def divert (bypass : Option Int) (step : JobStep) (succeeded : Bool) : JobStep :=
  match bypass with
  | none =>
    step.withBranch succeeded
      (if succeeded then StepAction.QuitWithSuccess else StepAction.QuitWithFailure) 0
  | some stepId => step.withBranch succeeded StepAction.GoToStep stepId

/-- Only a fall-through can be put back later, so an explicit branch is reported. -/
def divertWarning (target s : JobStep) (succeeded : Bool) : List JsString :=
  if s.action succeeded = StepAction.GoToStep then
    [js "\"" ++ s.name ++ js "\" branches explicitly to \"" ++ target.name ++ js "\" on " ++
      js (if succeeded then "success" else "failure") ++
      js (". That branch is being repointed past it, and re-enabling the step will not " ++
        "put it back.")]
  else []

/-- One step of a job in which `target` is switched off. -/
def disableInStep (definition : JobDefinition) (target : JobStep) (bypass : Option Int)
    (s : JobStep) : JobStep × List JsString :=
  if s.stepId = target.stepId then (s, [])
  else [true, false].foldl (fun (step, warnings) succeeded =>
    if arrivesHere definition target.stepId s succeeded then
      (divert bypass step succeeded, warnings ++ divertWarning target s succeeded)
    else (step, warnings)) (s, [])

/-- Switch a step off without removing it: whatever used to fall into it goes
wherever it went on success. -/
def disableStep (definition : JobDefinition) (stepId : Int) : StepEditResult :=
  match definition.steps.find? fun s => decide (s.stepId = stepId) with
  | none => ⟨definition, []⟩
  | some target =>
    if definition.steps.length = 1 then
      ⟨definition, [js "A job needs one step that runs, so its only step cannot be disabled."]⟩
    else
      let bypass := nextStepAfter definition target true
      let edited := definition.steps.map (disableInStep definition target bypass)
      let steps := edited.map (·.1)
      let warnings := edited.flatMap (·.2)
      if definition.startStepId = stepId then
        match bypass with
        | none => ⟨definition, [js "\"" ++ target.name ++
            js ("\" is the only step this job would run, so disabling it would leave " ++
              "the job with nothing to do.")]⟩
        | some id => ⟨{ definition with steps, startStepId := id },
            warnings ++ [js "The job started at \"" ++ target.name ++
              js "\", so it now starts at step " ++ decimal id ++ js "."]⟩
      else ⟨{ definition with steps }, warnings⟩

/-- Restore one branch of the step above the one being switched on, if it has a
shape that `disableStep` leaves. -/
def restoreBranch (definition : JobDefinition) (stepId : Int) (bypass : Option Int) (s step : JobStep)
    (succeeded : Bool) : JobStep :=
  if nextStepAfter definition s succeeded = some stepId then step
  else
    let jumpedOver := step.action succeeded = StepAction.GoToStep ∧
      bypass = some (step.target succeeded)
    let endedInstead := succeeded = true ∧ bypass = none ∧
      step.action succeeded = StepAction.QuitWithSuccess
    if jumpedOver ∨ endedInstead then step.withBranch succeeded StepAction.GoToNextStep 0 else step

/-- Put a disabled step back into the flow, at the position it occupies. -/
def enableStep (definition : JobDefinition) (stepId : Int) : StepEditResult :=
  match definition.steps.find? fun s => decide (s.stepId = stepId) with
  | none => ⟨definition, []⟩
  | some _ =>
    if stepId ∈ reachableSteps definition then ⟨definition, []⟩
    else
      let ordered := orderedSteps definition
      let index := ordered.findIdx fun s => s.stepId = stepId
      let previous := if index = 0 then none else ordered[index - 1]?
      let isLast : Bool := index + 1 = ordered.length
      let bypass := ordered[index + 1]?.map (·.stepId)
      let steps := definition.steps.map fun s =>
        if s.stepId ≠ stepId then
          match previous with
          | none => s
          | some previous =>
            if s.stepId ≠ previous.stepId then s
            else [true, false].foldl (restoreBranch definition stepId bypass s) s
        else if s.onSuccessAction = StepAction.GoToNextStep ∧ isLast then
          { s with onSuccessAction := StepAction.QuitWithSuccess, onSuccessStepId := 0 }
        else s
      let startStepId := if previous.isSome then definition.startStepId else stepId
      ⟨{ definition with steps, startStepId }, []⟩

end RemoteSqlAgent
