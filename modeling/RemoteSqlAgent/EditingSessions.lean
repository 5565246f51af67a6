import RemoteSqlAgent.StepRenumbering
import RemoteSqlAgent.StepRestoration
import RemoteSqlAgent.CanonicalRoundTrip
import RemoteSqlAgent.JsDigits

/-! The job editor over a whole session. A draft starts as the mirrored job and goes through any
edits the page offers, in any order; every draft that can be saved is numbered by position, names
no step that is not there, and is a job the schema reads back as it stands. -/
namespace RemoteSqlAgent
open Js

/-! ## The controls of the page -/

/-- `e.target.value || null`. -/
def emptyToNull (text : JsString) : Option JsString := if text = [] then none else some text

/-- The steps an action picker offers to go to. -/
def pickable (steps : List JobStep) (currentStepId : Int) : List JobStep :=
  steps.filter fun s => s.stepId ≠ currentStepId

/-- `others[0]?.stepId ?? currentStepId`. -/
def fallbackTarget (steps : List JobStep) (currentStepId : Int) : Int :=
  ((pickable steps currentStepId).head?.map (·.stepId)).getD currentStepId

/-- What one control of a step's detail is set to. -/
inductive StepPatch where
  | name (text : JsString)
  | subsystem (chosen : StepSubsystem)
  | databaseName (text : JsString)
  /-- The first select of an action picker. -/
  | action (succeeded : Bool) (next : Int)
  /-- Its second select, which only `GoToStep` shows. -/
  | target (succeeded : Bool) (chosen : Int)
  | retryAttempts (typed : Int)
  | retryIntervalMinutes (typed : Int)
  | command (text : JsString)

/-- The step with the patch spread over it. -/
def StepPatch.patch (steps : List JobStep) (step : JobStep) : StepPatch → JobStep
  | name text => { step with name := text }
  | subsystem chosen => { step with subsystem := chosen }
  | databaseName text => { step with databaseName := emptyToNull text }
  | action succeeded next =>
    let kept := if step.target succeeded = 0 then fallbackTarget steps step.stepId else step.target succeeded
    step.withBranch succeeded next (if next = StepAction.GoToStep then kept else 0)
  | target succeeded chosen => step.withBranch succeeded StepAction.GoToStep chosen
  | retryAttempts typed => { step with retryAttempts := typed }
  | retryIntervalMinutes typed => { step with retryIntervalMinutes := typed }
  | command text => { step with command := text }

/-- Patch one step, whose id stays. -/
def updateStep (definition : JobDefinition) (stepId : Int) (patch : JobStep → JobStep) : JobDefinition :=
  { definition with
    steps := definition.steps.map fun s => if s.stepId = stepId then { patch s with stepId } else s }

/-- What the operator does to a draft. -/
inductive DraftEdit where
  | structural (edit : StepEdit)
  /-- The checkbox of a step: does the job run it? -/
  | runs (stepId : Int) (checked : Bool)
  | patchStep (stepId : Int) (patch : StepPatch)
  | startAt (stepId : Int)
  | rename (text : JsString)
  | describe (text : JsString)
  | categorise (text : JsString)
  | enable (checked : Bool)
  | toggleSchedule (index : Nat) (checked : Bool)
  | discard

/-- The draft after an edit, `original` being the mirrored job. -/
def DraftEdit.apply (original draft : JobDefinition) : DraftEdit → JobDefinition
  | structural edit => (edit.apply draft).definition
  | runs stepId checked => (if checked then enableStep draft stepId else disableStep draft stepId).definition
  | patchStep stepId patch => updateStep draft stepId fun s => patch.patch draft.steps s
  | startAt stepId => { draft with startStepId := stepId }
  | rename text => { draft with name := text }
  | describe text => { draft with description := emptyToNull text }
  | categorise text => { draft with categoryName := emptyToNull text }
  | enable checked => { draft with enabled := checked }
  | toggleSchedule index checked => { draft with
      schedules := draft.schedules.mapIdx fun i schedule =>
        if i = index then { schedule with enabled := checked } else schedule }
  | discard => original

/-- The options the selects of a step offer, and the bounds on what is typed there. -/
def StepPatch.Takes (draft : JobDefinition) (stepId : Int) : StepPatch → Prop
  | name text => (1 ≤ text.length ∧ text.length ≤ 128) ∧
      ∀ s ∈ draft.steps, s.stepId ≠ stepId → s.name ≠ text
  | action _ next => (next = StepAction.QuitWithSuccess ∨ next = StepAction.QuitWithFailure ∨
      next = StepAction.GoToNextStep) ∨ (next = StepAction.GoToStep ∧ pickable draft.steps stepId ≠ [])
  | target _ chosen => ∃ s ∈ pickable draft.steps stepId, s.stepId = chosen
  | retryAttempts typed | retryIntervalMinutes typed => IsSafeInteger typed ∧ 0 ≤ typed
  | subsystem _ | databaseName _ | command _ => True

/-- The edits that can follow. Of what is typed, names and numbers are within the bounds of the schema. -/
def DraftEdit.Takes (draft : JobDefinition) : DraftEdit → Prop
  | patchStep stepId patch => patch.Takes draft stepId
  | startAt stepId => stepId ∈ draft.stepIds
  | rename text => 1 ≤ text.length ∧ text.length ≤ 128
  | structural _ | runs _ _ | describe _ | categorise _ | enable _ | toggleSchedule _ _ | discard => True

/-- Edits that neither drop a step nor change what is entered for one. -/
def DraftEdit.Restructures : DraftEdit → Prop
  | structural (.remove _) | patchStep _ (.name _) | patchStep _ (.subsystem _) | patchStep _ (.databaseName _)
  | patchStep _ (.retryAttempts _) | patchStep _ (.retryIntervalMinutes _) | patchStep _ (.command _) | discard => False
  | structural _ | patchStep _ (.action _ _) | patchStep _ (.target _ _) | runs _ _ | startAt _ | rename _ | describe _
  | categorise _ | enable _ | toggleSchedule _ _ => True

/-- The drafts a session comes to, by so many edits of the ones it may make. -/
inductive Drafts (original : JobDefinition) (mayMake : JobDefinition → DraftEdit → Prop) : Nat → JobDefinition → Prop
  | opened : Drafts original mayMake 0 original
  | edited {count : Nat} {draft : JobDefinition} (before : Drafts original mayMake count draft) (edit : DraftEdit)
      (makes : mayMake draft edit) : Drafts original mayMake (count + 1) (edit.apply original draft)

/-! ## What every draft is -/

/-- A branch names a step of a job of this width, or none. -/
structure JobStep.Wired (step : JobStep) (width : Nat) (succeeded : Bool) : Prop where
  action : IsSafeInteger (step.action succeeded)
  target : 0 ≤ step.target succeeded ∧ step.target succeeded ≤ width
  jumps : step.action succeeded = StepAction.GoToStep → 1 ≤ step.target succeeded

/-- What is entered for a step, its branches apart, is within the bounds of the schema. -/
structure JobStep.Entered (step : JobStep) : Prop where
  name : 1 ≤ step.name.length ∧ step.name.length ≤ 128
  retryAttempts : IsSafeInteger step.retryAttempts ∧ 0 ≤ step.retryAttempts
  retryIntervalMinutes : IsSafeInteger step.retryIntervalMinutes ∧ 0 ≤ step.retryIntervalMinutes
  flags : IsSafeInteger step.flags ∧ 0 ≤ step.flags

/-- A job with its steps left out. -/
def JobDefinition.header (definition : JobDefinition) : JobDefinition :=
  { definition with steps := [], startStepId := 1 }

/-- A job the editor keeps in order: ids are positions, references name steps, no two steps share
a name, and the schema admits it. -/
structure Editable (definition : JobDefinition) : Prop where
  numbered : definition.stepIds = (List.range definition.steps.length).map fun index : Nat => (index : Int) + 1
  start : 1 ≤ definition.startStepId ∧ definition.startStepId ≤ definition.steps.length
  wired : ∀ step ∈ definition.steps, ∀ succeeded, step.Wired definition.steps.length succeeded
  entered : ∀ step ∈ definition.steps, step.Entered
  names : (definition.steps.map (·.name)).Nodup
  header : definition.header.Admissible

variable {original draft definition : JobDefinition}

private theorem safe_quitting : IsSafeInteger StepAction.QuitWithSuccess := by
  simp [IsSafeInteger, StepAction.QuitWithSuccess]

/-- One branch set to another. -/
theorem JobStep.Wired.withBranch {step : JobStep} {width : Nat} (wired : ∀ succeeded, step.Wired width succeeded)
    {action target : Int} (safe : IsSafeInteger action) (range : 0 ≤ target ∧ target ≤ width)
    (jumps : action = StepAction.GoToStep → 1 ≤ target) (edited succeeded : Bool) :
    (step.withBranch edited action target).Wired width succeeded := by
  by_cases same : succeeded = edited
  · exact ⟨by simpa [same] using safe, by simpa [same] using range, by simpa [same] using jumps⟩
  · have kept := wired succeeded
    exact ⟨by simpa [same] using kept.action, by simpa [same] using kept.target, by simpa [same] using kept.jumps⟩

theorem JobStep.Entered.of_content {old new : JobStep} (entered : old.Entered) (same : new.content = old.content) :
    new.Entered := by
  have name : new.name = old.name := (congrArg JobStep.name same :)
  have attempts : new.retryAttempts = old.retryAttempts := (congrArg JobStep.retryAttempts same :)
  have interval : new.retryIntervalMinutes = old.retryIntervalMinutes := (congrArg JobStep.retryIntervalMinutes same :)
  have flags : new.flags = old.flags := (congrArg JobStep.flags same :)
  exact ⟨name ▸ entered.name, attempts ▸ entered.retryAttempts, interval ▸ entered.retryIntervalMinutes,
    flags ▸ entered.flags⟩

namespace Editable

theorem isNumbered (editable : Editable definition) : Numbered definition := List.Perm.of_eq editable.numbered

theorem coherent (editable : Editable definition) : Coherent definition where
  distinct := editable.isNumbered.distinct
  positive := editable.isNumbered.positive
  starts := editable.isNumbered.mem_stepIds.mpr editable.start
  jumps step member succeeded jumps := by
    have wired := editable.wired step member succeeded
    exact editable.isNumbered.mem_stepIds.mpr ⟨wired.jumps jumps, wired.target.2⟩

theorem inRange (editable : Editable definition) : InRange definition := by
  refine ⟨editable.start, fun step member succeeded jumps => ?_⟩
  have wired := editable.wired step member succeeded
  exact ⟨wired.jumps jumps, wired.target.2⟩

theorem stepId_range (editable : Editable definition) {step : JobStep} (member : step ∈ definition.steps) :
    1 ≤ step.stepId ∧ step.stepId ≤ definition.steps.length :=
  editable.isNumbered.mem_stepIds.mp (List.mem_map_of_mem member)

private theorem safe_of_range {n : Int} {width : Nat} (small : width < 2 ^ 53) (low : 0 ≤ n) (high : n ≤ width) :
    IsSafeInteger n := by
  unfold IsSafeInteger
  omega

/-- The schema admits it. -/
theorem admissible (editable : Editable definition) (small : definition.steps.length < 2 ^ 53) :
    definition.Admissible where
  name := editable.header.name
  startStepId := by
    obtain ⟨low, high⟩ := editable.start
    exact ⟨safe_of_range small (by omega) high, low⟩
  notifications := editable.header.notifications
  schedules := editable.header.schedules
  steps step member := by
    obtain ⟨low, high⟩ := editable.stepId_range member
    have entered := editable.entered step member
    have onSuccess := editable.wired step member true
    have onFail := editable.wired step member false
    exact {
      stepId := ⟨safe_of_range small (by omega) high, low⟩
      name := entered.name
      onSuccessAction := onSuccess.action
      onSuccessStepId := safe_of_range small onSuccess.target.1 onSuccess.target.2
      onFailAction := onFail.action
      onFailStepId := safe_of_range small onFail.target.1 onFail.target.2
      retryAttempts := entered.retryAttempts
      retryIntervalMinutes := entered.retryIntervalMinutes
      flags := entered.flags }

/-- Steps edited in place. -/
theorem mapped (editable : Editable definition) {edit : JobStep → JobStep} {start : Int}
    (ids : ∀ step ∈ definition.steps, (edit step).stepId = step.stepId)
    (wired : ∀ step ∈ definition.steps, ∀ succeeded, (edit step).Wired definition.steps.length succeeded)
    (entered : ∀ step ∈ definition.steps, (edit step).Entered)
    (names : ((definition.steps.map edit).map (·.name)).Nodup)
    (starts : 1 ≤ start ∧ start ≤ definition.steps.length) :
    Editable { definition with steps := definition.steps.map edit, startStepId := start } where
  numbered := by
    have kept : (definition.steps.map edit).map (·.stepId) = definition.steps.map (·.stepId) := by
      rw [List.map_map]
      exact List.map_congr_left ids
    rw [JobDefinition.stepIds, kept, List.length_map]
    exact editable.numbered
  start := by
    rw [List.length_map]
    exact starts
  wired step member succeeded := by
    obtain ⟨old, there, rfl⟩ := List.mem_map.mp member
    rw [List.length_map]
    exact wired old there succeeded
  entered step member := by
    obtain ⟨old, there, rfl⟩ := List.mem_map.mp member
    exact entered old there
  names := names
  header := editable.header

/-- Steps of which only branches are edited. -/
theorem rewired (editable : Editable definition) {edit : JobStep → JobStep} {start : Int}
    (frame : ∀ step ∈ definition.steps, (edit step).stepId = step.stepId ∧ (edit step).content = step.content)
    (wired : ∀ step ∈ definition.steps, ∀ succeeded, (edit step).Wired definition.steps.length succeeded)
    (starts : 1 ≤ start ∧ start ≤ definition.steps.length) :
    Editable { definition with steps := definition.steps.map edit, startStepId := start } := by
  have names : (definition.steps.map edit).map (·.name) = definition.steps.map (·.name) := by
    rw [List.map_map]
    exact List.map_congr_left fun step member => (congrArg JobStep.name (frame step member).2 :)
  refine editable.mapped (fun step member => (frame step member).1) wired ?_ (names ▸ editable.names) starts
  exact fun step member => (editable.entered step member).of_content (frame step member).2

/-! ## Switching steps off and on -/

/-- Where a step leads is a step. -/
theorem nextStepAfter_range (editable : Editable definition) {step : JobStep} (member : step ∈ definition.steps)
    {succeeded : Bool} {later : Int} (next : nextStepAfter definition step succeeded = some later) :
    1 ≤ later ∧ later ≤ definition.steps.length := by
  have wired := editable.wired step member succeeded
  unfold nextStepAfter at next
  split_ifs at next with jumps zero falls
  · obtain rfl := Option.some.inj next
    exact ⟨wired.jumps jumps, wired.target.2⟩
  · exact editable.isNumbered.mem_stepIds.mp (stepIdAfter_eq_some.mp next).1

private theorem wired_of_branch {old new : JobStep} {width : Nat} {succeeded : Bool} {branch : Int × Int}
    (wired : old.Wired width succeeded) {diverts : Prop} [Decidable diverts]
    (same : (new.action succeeded, new.target succeeded) =
      if diverts then branch else (old.action succeeded, old.target succeeded))
    (safe : IsSafeInteger branch.1) (target : 0 ≤ branch.2 ∧ branch.2 ≤ width)
    (jumps : branch.1 = StepAction.GoToStep → 1 ≤ branch.2) : new.Wired width succeeded := by
  split_ifs at same
  · obtain ⟨action, led⟩ := Prod.mk.inj same
    exact ⟨action ▸ safe, led ▸ target, fun goes => led ▸ jumps (action ▸ goes)⟩
  · obtain ⟨action, led⟩ := Prod.mk.inj same
    exact ⟨action ▸ wired.action, led ▸ wired.target, fun goes => led ▸ wired.jumps (action ▸ goes)⟩

theorem disableStep (editable : Editable definition) (stepId : Int) :
    Editable (disableStep definition stepId).definition := by
  have distinct := editable.isNumbered.distinct
  by_cases edits : DisableRefuses definition stepId
  · rw [disableStep_refused distinct edits]
    exact editable
  obtain ⟨target, member, rfl⟩ := List.mem_map.mp (not_not.mp (not_or.mp edits).1)
  rw [disableStep_definition distinct member edits]
  have bypassed : ∀ later, nextStepAfter definition target true = some later →
      1 ≤ later ∧ later ≤ definition.steps.length := fun _ next => editable.nextStepAfter_range member next
  refine editable.rewired (fun _ _ => disableInStep_frame) (fun step there succeeded => ?_) ?_
  · by_cases other : step.stepId = target.stepId
    · rw [disableInStep_self other]
      exact editable.wired step there succeeded
    · refine wired_of_branch (editable.wired step there succeeded) (disableInStep_branch other succeeded) ?_ ?_ ?_
      all_goals cases bypass : nextStepAfter definition target true with
      | none => cases succeeded <;> simp [diverted, IsSafeInteger, StepAction.GoToStep, StepAction.QuitWithSuccess,
          StepAction.QuitWithFailure]
      | some later =>
        obtain ⟨low, high⟩ := bypassed later bypass
        simp [diverted, IsSafeInteger, StepAction.GoToStep, low, high, le_trans zero_le_one low]
  · split_ifs
    · cases bypass : nextStepAfter definition target true with
      | none => exact editable.start
      | some later => exact bypassed later bypass
    · exact editable.start

theorem enableStep (editable : Editable definition) (stepId : Int) :
    Editable (enableStep definition stepId).definition := by
  have numbered := editable.isNumbered
  by_cases there : stepId ∈ definition.stepIds
  · by_cases reached : stepId ∈ reachableSteps definition
    · obtain ⟨target, member, rfl⟩ := List.mem_map.mp there
      simp only [RemoteSqlAgent.enableStep, find_step numbered.distinct member, reached, ↓reduceIte]
      exact editable
    · rw [enableStep_definition numbered there reached]
      refine editable.rewired (fun step _ => enableInStep_frame step) (fun step member succeeded => ?_) ?_
      · have wired := editable.wired step member succeeded
        unfold enableInStep
        split_ifs
        · unfold closed
          split_ifs
          · change (step.withBranch true StepAction.QuitWithSuccess 0).Wired _ _
            exact .withBranch (editable.wired step member) safe_quitting ⟨le_refl 0, by simp⟩ (by decide) true succeeded
          · exact wired
        · refine wired_of_branch wired (repaired_branch definition stepId step succeeded) ?_ ?_ ?_ <;>
            simp [IsSafeInteger, StepAction.GoToStep, StepAction.GoToNextStep]
        · exact wired
      · have start := editable.start
        split_ifs
        · exact ⟨le_refl _, by omega⟩
        · exact start
  · unfold RemoteSqlAgent.enableStep
    rw [find_step_none there]
    exact editable

end Editable

/-! ## The name of a new step -/

theorem numberedName_eq (n : Nat) : numberedName n = js "Step " ++ digits n := by
  have positive : ¬(n : Int) < 0 := by omega
  rw [numberedName, decimal, if_neg positive, Int.natAbs_natCast]

theorem numberedName_injective : Function.Injective numberedName := by
  intro m n same
  rw [numberedName_eq, numberedName_eq] at same
  exact digits_injective (List.append_cancel_left same)

/-- A number that is tried last and taken has only taken ones before it. -/
theorem firstFree_taken {taken : List JsString} {fuel n : Nat} (found : numberedName (firstFree taken fuel n) ∈ taken) :
    ∀ k ≤ fuel, numberedName (n + k) ∈ taken := by
  induction fuel generalizing n with
  | zero =>
    intro k bound
    obtain rfl : k = 0 := by omega
    exact found
  | succ fuel ih =>
    unfold firstFree at found
    split_ifs at found with here
    · intro k bound
      cases k with
      | zero => exact here
      | succ k =>
        have later := ih found k (by omega)
        rwa [Nat.add_assoc, Nat.add_comm 1 k] at later
    · exact absurd found here

theorem firstFree_le (taken : List JsString) (fuel n : Nat) : firstFree taken fuel n ≤ n + fuel := by
  induction fuel generalizing n with
  | zero => exact le_refl n
  | succ fuel ih =>
    unfold firstFree
    split_ifs
    · have bound := ih (n + 1)
      omega
    · omega

/-- The name a new step gets is free: there are more names tried than taken. -/
theorem nextStepName_fresh (definition : JobDefinition) :
    nextStepName definition ∉ definition.steps.map (·.name) := by
  intro found
  have each := firstFree_taken found
  generalize definition.steps.map (·.name) = taken at each
  have distinct : ((List.range (taken.length + 2)).map fun k => numberedName (taken.length + 1 + k)).Nodup := by
    refine List.nodup_range.map fun i j same => ?_
    have equal := numberedName_injective same
    omega
  have subset : ((List.range (taken.length + 2)).map fun k => numberedName (taken.length + 1 + k)) ⊆ taken := by
    intro name member
    obtain ⟨k, inside, rfl⟩ := List.mem_map.mp member
    exact each k (by have bound := List.mem_range.mp inside; omega)
  have fewer := (List.subperm_of_subset distinct subset).length_le
  rw [List.length_map, List.length_range] at fewer
  omega

theorem digits_length {width n : Nat} (fits : n < 10 ^ (width + 1)) :
    1 ≤ (digits n).length ∧ (digits n).length ≤ width + 1 := by
  induction width generalizing n with
  | zero =>
    rw [digits_small (by simpa using fits)]
    exact ⟨le_refl 1, le_refl 1⟩
  | succ width ih =>
    by_cases small : n < 10
    · rw [digits_small small, List.length_singleton]
      omega
    · have shorter : n / 10 < 10 ^ (width + 1) := by
        rw [Nat.pow_succ] at fits
        omega
      have before := ih shorter
      rw [digits_large (by omega), List.length_append, List.length_singleton]
      omega

theorem nextStepName_length (small : definition.steps.length < 2 ^ 53) :
    1 ≤ (nextStepName definition).length ∧ (nextStepName definition).length ≤ 128 := by
  have bound := firstFree_le (definition.steps.map (·.name)) (definition.steps.length + 1) (definition.steps.length + 1)
  have fits : firstFree (definition.steps.map (·.name)) (definition.steps.length + 1) (definition.steps.length + 1) <
      10 ^ (16 + 1) := by omega
  have width := digits_length fits
  have word : (js "Step ").length = 5 := by decide
  simp only [nextStepName, List.length_map, numberedName_eq, List.length_append, word]
  omega

/-! ## Moving steps -/

section Structural
variable {slots : List (Option Int)}

/-- How many steps an edit brings in. -/
def StepEdit.arrivals : StepEdit → Nat
  | .add _ => 1
  | .remove _ | .move _ _ | .reorder _ _ => 0

theorem plan_arrivals {edit : StepEdit} (planned : edit.plan definition = some slots) :
    slots.count none = edit.arrivals := by
  have old : ∀ ids : List Int, (ids.map some).count none = 0 := fun ids =>
    List.count_eq_zero.mpr (by simp)
  cases edit with
  | add afterStepId =>
    simp only [StepEdit.plan, Option.some.injEq] at planned
    subst planned
    have inside : ((afterStepId.bind (positions definition).idxOf?).map (· + 1)).getD
        (positions definition).length ≤ ((positions definition).map some).length := by
      rw [List.length_map]
      cases found : afterStepId.bind (positions definition).idxOf? with
      | none => exact le_refl _
      | some index =>
        obtain ⟨stepId, -, here⟩ := Option.bind_eq_some_iff.mp found
        exact (List.idxOf?_eq_some_iff.mp here).1
    rw [(List.perm_insertIdx none _ inside).count_eq, List.count_cons_self, old]
    rfl
  | remove stepId =>
    simp only [StepEdit.plan, Option.ite_none_right_eq_some, Option.some.injEq] at planned
    rw [← planned.2, old]
    rfl
  | move stepId direction =>
    simp only [StepEdit.plan, Option.bind_eq_some_iff] at planned
    obtain ⟨index, -, planned⟩ := planned
    obtain ⟨-, planned⟩ := Option.ite_none_left_eq_some.mp planned
    obtain ⟨other, -, rfl⟩ := Option.map_eq_some_iff.mp planned
    rw [old]
    rfl
  | reorder stepId toIndex =>
    simp only [StepEdit.plan, Option.bind_eq_some_iff, Option.ite_none_left_eq_some, Option.some.injEq] at planned
    obtain ⟨index, -, -, rfl⟩ := planned
    rw [old]
    rfl

theorem perm_slots (slots : List (Option Int)) :
    slots.Perm (List.replicate (slots.count none) none ++ slots.reduceOption.map some) := by
  induction slots with
  | nil => exact .nil
  | cons slot rest ih =>
    cases slot with
    | none =>
      rw [List.count_cons_self, List.replicate_succ, List.cons_append, List.reduceOption_cons_of_none]
      exact ih.cons none
    | some stepId =>
      rw [List.count_cons_of_ne (by simp), List.reduceOption_cons_of_some, List.map_cons]
      exact (ih.cons _).trans List.perm_middle.symm

/-- What is entered for the step in a slot. -/
def slotContent (definition : JobDefinition) : Option Int → JobStep
  | none => (newStepTemplate (nextStepName definition)).content
  | some stepId => ((stepById definition stepId).getD (newStepTemplate [])).content

theorem slotContent_slotOf (distinct : definition.stepIds.Nodup) {nodes : List Node} (drawn : Drawn definition nodes)
    {node : Node} (member : node ∈ nodes) : slotContent definition (slotOf definition node) = node.step.content := by
  rcases drawn node member with old | rfl
  · have found : stepById definition node.step.stepId = some node.step :=
      (stepById_eq_some distinct).mpr ⟨step_mem_of_mem_toNodes old, rfl⟩
    rw [slotOf_old old, slotContent, found, Option.getD_some]
  · rw [slotOf_created, slotContent]
    rfl

/-- What an edit leaves of what was entered: everything but the step it drops, and a new step if
it adds one. -/
def StepEdit.leaves (definition : JobDefinition) (edit : StepEdit) : List JobStep :=
  List.replicate edit.arrivals (newStepTemplate (nextStepName definition)).content ++
    (definition.steps.filter fun step => edit.drops ≠ some step.stepId).map (·.content)

/-- An edit that moves steps moves what was entered for them, whole. -/
theorem rebuild_contents (coherent : Coherent definition) {edit : StepEdit}
    (planned : edit.plan definition = some slots) {nodes : List Node} (removed : List Node)
    (drawn : Drawn definition nodes) (spells : nodes.map (slotOf definition) = slots) :
    ((rebuild definition nodes removed).definition.steps.map (·.content)).Perm (edit.leaves definition) := by
  have contents : (rebuild definition nodes removed).definition.steps.map (·.content) =
      slots.map (slotContent definition) := by
    rw [← spells, List.map_map, rebuild_steps]
    refine List.ext_getElem (by simp) fun index inside _ => ?_
    rw [List.length_map, List.length_mapIdx] at inside
    simp only [List.getElem_map, List.getElem_mapIdx, Function.comp_apply, rebuildStep_content]
    exact (slotContent_slotOf coherent.distinct drawn (List.getElem_mem inside)).symm
  have survivors := (plan_survivors coherent planned).map (slotContent definition ∘ some)
  have named : (definition.stepIds.filter fun stepId => edit.drops ≠ some stepId).map (slotContent definition ∘ some) =
      (definition.steps.filter fun step => edit.drops ≠ some step.stepId).map (·.content) := by
    rw [JobDefinition.stepIds, List.filter_map, List.map_map]
    refine List.map_congr_left fun step member => ?_
    have found : stepById definition step.stepId = some step :=
      (stepById_eq_some coherent.distinct).mpr ⟨(List.mem_filter.mp member).1, rfl⟩
    simp only [Function.comp_apply, slotContent, found, Option.getD_some]
  rw [contents, StepEdit.leaves, ← named]
  refine ((perm_slots slots).map (slotContent definition)).trans ?_
  rw [List.map_append, List.map_replicate, plan_arrivals planned, List.map_map]
  exact (List.Perm.refl _).append survivors

/-- What an edit keeps of the names is free of repetitions, and the new name is not among them. -/
theorem leaves_names (editable : Editable definition) (edit : StepEdit) :
    ((edit.leaves definition).map (·.name)).Nodup := by
  have kept : ((definition.steps.filter fun step => edit.drops ≠ some step.stepId).map (·.content)).map (·.name) =
      (definition.steps.filter fun step => edit.drops ≠ some step.stepId).map (·.name) := by
    rw [List.map_map]
    rfl
  have sublist := (List.filter_sublist (p := fun step => edit.drops ≠ some step.stepId) (l := definition.steps)).map
    (·.name)
  rw [StepEdit.leaves, List.map_append, List.map_replicate, kept]
  cases edit with
  | add afterStepId =>
    refine List.nodup_cons.mpr ⟨fun member => ?_, editable.names.sublist sublist⟩
    exact nextStepName_fresh definition (sublist.subset member)
  | remove _ | move _ _ | reorder _ _ => exact editable.names.sublist sublist

theorem leaves_length (definition : JobDefinition) (edit : StepEdit) :
    (edit.leaves definition).length ≤ definition.steps.length + 1 := by
  have fewer := List.length_filter_le (fun step => decide (edit.drops ≠ some step.stepId)) definition.steps
  have one : edit.arrivals ≤ 1 := by cases edit <;> simp [StepEdit.arrivals]
  rw [StepEdit.leaves, List.length_append, List.length_replicate, List.length_map]
  omega

theorem leaves_entered (editable : Editable definition) (small : definition.steps.length < 2 ^ 53) (edit : StepEdit) :
    ∀ content ∈ edit.leaves definition, content.Entered := by
  intro content member
  rcases List.mem_append.mp member with fresh | kept
  · rw [List.eq_of_mem_replicate fresh]
    refine ⟨nextStepName_length small, ?_, ?_, ?_⟩ <;>
      simp [newStepTemplate, JobStep.content, IsSafeInteger]
  · obtain ⟨step, there, rfl⟩ := List.mem_map.mp kept
    exact (editable.entered step (List.mem_filter.mp there).1).of_content rfl

/-- A branch that is written back names a position or none. -/
theorem rebuildStep_wired {nodes : List Node} {index : Nat} {node : Node} (inside : index < nodes.length)
    (succeeded : Bool) (safe : IsSafeInteger (node.step.action succeeded)) :
    (rebuildStep nodes index node).1.Wired nodes.length succeeded where
  action := by
    by_cases jumps : node.step.action succeeded = StepAction.GoToStep
    · cases survives : (node.target succeeded).bind (positionOf nodes) with
      | some position =>
        rw [(rebuildStep_follows jumps survives).1]
        simp [IsSafeInteger, StepAction.GoToStep]
      | none =>
        rw [(rebuildStep_strays inside jumps survives).1]
        cases succeeded <;> cases decide (index + 1 < nodes.length) <;>
          simp [strayed, quitting, IsSafeInteger, StepAction.GoToNextStep, StepAction.QuitWithSuccess,
            StepAction.QuitWithFailure]
    · rw [(rebuildStep_stays jumps).1]
      split_ifs
      · cases succeeded <;>
          simp [quitting, IsSafeInteger, StepAction.QuitWithSuccess, StepAction.QuitWithFailure]
      · simp [IsSafeInteger, StepAction.GoToNextStep]
      · exact safe
  target := by
    rcases rebuildStep_target node succeeded inside with ⟨-, position⟩ | ⟨-, none_⟩
    · obtain ⟨ident, -, at_⟩ := Option.bind_eq_some_iff.mp position
      have range := positionOf_range at_
      omega
    · rw [none_]
      omega
  jumps := by
    intro jumps
    rcases rebuildStep_target node succeeded inside with ⟨-, position⟩ | ⟨quits, -⟩
    · obtain ⟨ident, -, at_⟩ := Option.bind_eq_some_iff.mp position
      exact (positionOf_range at_).1
    · exact absurd jumps quits

/-- An edit that moves steps keeps the job in order, and what it leaves of the contents is what
the edited job holds. -/
theorem Editable.structural (editable : Editable definition) (small : definition.steps.length < 2 ^ 53)
    (edit : StepEdit) : Editable (edit.apply definition).definition ∧
      ((edit.apply definition).definition = definition ∨
        ((edit.apply definition).definition.steps.map (·.content)).Perm (edit.leaves definition)) := by
  have coherent := editable.coherent
  have performs := performs coherent edit
  unfold Performs at performs
  cases planned : edit.plan definition with
  | none =>
    rw [planned] at performs
    exact ⟨by rw [performs]; exact editable, .inl performs⟩
  | some slots =>
    rw [planned] at performs
    obtain ⟨nodes, removed, arranged, spells, same⟩ := performs
    have renumbered := rebuild_renumbered coherent arranged
    have contents := rebuild_contents coherent planned removed arranged.drawn spells
    rw [same]
    generalize edited : (rebuild definition nodes removed).definition = after at *
    have steps : after.steps = nodes.mapIdx fun index node => (rebuildStep nodes index node).1 := by
      rw [← edited, rebuild_steps]
    have width : after.steps.length = nodes.length := by rw [steps, List.length_mapIdx]
    have spelled : (nodes.map (slotOf definition)).length = after.steps.length := by rw [List.length_map, width]
    refine ⟨⟨?_, ?_, ?_, ?_, ?_, ?_⟩, .inr contents⟩
    case refine_1 => exact spelled ▸ renumbered.numbered
    case refine_2 => exact spelled ▸ renumbered.startInRange
    case refine_3 =>
      intro step member succeeded
      rw [steps] at member
      obtain ⟨index, inside, rfl⟩ := List.mem_mapIdx.mp member
      rw [width]
      refine rebuildStep_wired inside succeeded ?_
      rcases arranged.drawn _ (List.getElem_mem inside) with old | created
      · exact (editable.wired _ (step_mem_of_mem_toNodes old) succeeded).action
      · rw [created]
        cases succeeded <;>
          simp [createdNode, newStepTemplate, JobStep.action, IsSafeInteger, StepAction.GoToNextStep,
            StepAction.QuitWithFailure]
    case refine_4 =>
      intro step member
      have left := contents.subset (List.mem_map_of_mem member)
      exact (leaves_entered editable small edit _ left).of_content rfl
    case refine_5 =>
      have names := (contents.map (·.name)).nodup_iff.mpr (leaves_names editable edit)
      rwa [List.map_map] at names
    case refine_6 =>
      have header : after.header = definition.header := by
        rw [renumbered.frame]
        rfl
      exact header ▸ editable.header

end Structural

/-! ## The other controls -/

namespace Editable

section Patching
variable {stepId : Int} {patch : StepPatch} (takes : patch.Takes definition stepId)
include takes

private theorem patch_name (editable : Editable definition) {step other : JobStep} (member : step ∈ definition.steps)
    (there : other ∈ definition.steps) (same : step.stepId = stepId) (differs : other.stepId ≠ stepId) :
    other.name ≠ (patch.patch definition.steps step).name := by
  have kept : other.name ≠ step.name := by
    intro equal
    obtain rfl := List.inj_on_of_nodup_map editable.names there member equal
    exact differs same
  cases patch with
  | name text => exact takes.2 other there differs
  | action succeeded next => cases succeeded <;> exact kept
  | target succeeded chosen => cases succeeded <;> exact kept
  | subsystem _ | databaseName _ | retryAttempts _ | retryIntervalMinutes _ | command _ => exact kept

private theorem patch_entered {step : JobStep} (entered : step.Entered) :
    (patch.patch definition.steps step).Entered := by
  cases patch with
  | name text => exact ⟨takes.1, entered.retryAttempts, entered.retryIntervalMinutes, entered.flags⟩
  | retryAttempts typed => exact ⟨entered.name, takes, entered.retryIntervalMinutes, entered.flags⟩
  | retryIntervalMinutes typed => exact ⟨entered.name, entered.retryAttempts, takes, entered.flags⟩
  | action succeeded next => exact entered.of_content (withBranch_content ..)
  | target succeeded chosen => exact entered.of_content (withBranch_content ..)
  | subsystem _ | databaseName _ | command _ =>
    exact ⟨entered.name, entered.retryAttempts, entered.retryIntervalMinutes, entered.flags⟩

private theorem patch_wired (editable : Editable definition) {step : JobStep} (member : step ∈ definition.steps)
    (same : step.stepId = stepId) (succeeded : Bool) :
    (patch.patch definition.steps step).Wired definition.steps.length succeeded := by
  have wired := editable.wired step member
  have offered : ∀ s ∈ pickable definition.steps stepId, 1 ≤ s.stepId ∧ s.stepId ≤ definition.steps.length :=
    fun s picked => editable.stepId_range (List.mem_filter.mp picked).1
  cases patch with
  | action edited next =>
    rcases takes with ends | ⟨rfl, some_⟩
    · have plain : next ≠ StepAction.GoToStep := by rcases ends with rfl | rfl | rfl <;> decide
      rw [StepPatch.patch, if_neg plain]
      refine .withBranch wired ?_ ⟨le_refl 0, by simp⟩ (fun jumps => absurd jumps plain) edited succeeded
      rcases ends with rfl | rfl | rfl <;>
        simp [IsSafeInteger, StepAction.QuitWithSuccess, StepAction.QuitWithFailure, StepAction.GoToNextStep]
    · -- The picker keeps the step it named before, or falls back on the first of the others.
      have picked : 1 ≤ fallbackTarget definition.steps stepId ∧
          fallbackTarget definition.steps stepId ≤ definition.steps.length := by
        unfold fallbackTarget
        cases others : pickable definition.steps stepId with
        | nil => exact absurd others some_
        | cons first rest => exact offered first (by simp [others])
      have kept := (wired edited).target
      rw [StepPatch.patch, if_pos rfl, same]
      refine .withBranch wired (by simp [IsSafeInteger, StepAction.GoToStep]) ?_ (fun _ => ?_) edited succeeded <;>
        split_ifs <;> omega
  | target edited chosen =>
    obtain ⟨s, picked, rfl⟩ := takes
    obtain ⟨low, high⟩ := offered s picked
    exact .withBranch wired (by simp [IsSafeInteger, StepAction.GoToStep]) ⟨by omega, high⟩ (fun _ => low) edited
      succeeded
  | name _ | subsystem _ | databaseName _ | retryAttempts _ | retryIntervalMinutes _ | command _ =>
    cases succeeded
    · exact ⟨(wired false).action, (wired false).target, (wired false).jumps⟩
    · exact ⟨(wired true).action, (wired true).target, (wired true).jumps⟩

theorem patched (editable : Editable definition) :
    Editable (updateStep definition stepId fun s => patch.patch definition.steps s) := by
  have own : ∀ step : JobStep, step.stepId = stepId → ∀ after : JobStep, after.stepId = step.stepId →
      ({ after with stepId } : JobStep) = after := by
    rintro step rfl after same
    cases after
    cases same
    rfl
  have keeps : ∀ step : JobStep, (patch.patch definition.steps step).stepId = step.stepId := by
    intro step
    cases patch <;> first | rfl | exact withBranch_stepId ..
  have edited : ∀ step : JobStep,
      (if step.stepId = stepId then { patch.patch definition.steps step with stepId } else step) =
        if step.stepId = stepId then patch.patch definition.steps step else step := by
    intro step
    split_ifs with same
    · exact own step same _ (keeps step)
    · rfl
  unfold updateStep
  simp only [edited]
  refine editable.mapped (fun step member => ?_) (fun step member succeeded => ?_) (fun step member => ?_) ?_
    editable.start
  · split_ifs
    · exact keeps step
    · rfl
  · split_ifs with same
    · exact patch_wired takes editable member same succeeded
    · exact editable.wired step member succeeded
  · split_ifs
    · exact patch_entered takes (editable.entered step member)
    · exact editable.entered step member
  · rw [List.map_map]
    refine (List.Nodup.of_map _ editable.names).map_on fun step member other there equal => ?_
    simp only [Function.comp_apply] at equal
    split_ifs at equal with here also also
    · exact List.inj_on_of_nodup_map editable.isNumbered.distinct member there (here.trans also.symm)
    · exact absurd equal.symm (patch_name takes editable member there here also)
    · exact absurd equal (patch_name takes editable there member also here)
    · exact List.inj_on_of_nodup_map editable.names member there equal

end Patching

theorem toggled (editable : Editable definition) (index : Nat) (checked : Bool) :
    Editable { definition with schedules := definition.schedules.mapIdx fun i schedule =>
      if i = index then { schedule with enabled := checked } else schedule } := by
  refine { editable with header := { editable.header with schedules := fun schedule member => ?_ } }
  obtain ⟨at_, inside, rfl⟩ := List.mem_mapIdx.mp member
  have valid := editable.header.schedules _ (List.getElem_mem inside)
  split_ifs
  · exact ⟨valid.name, valid.freqType, valid.freqInterval, valid.freqSubdayType, valid.freqSubdayInterval,
      valid.freqRelativeInterval, valid.freqRecurrenceFactor, valid.activeStartDate, valid.activeEndDate,
      valid.activeStartTime, valid.activeEndTime⟩
  · exact valid

/-- One edit of the page. -/
theorem edited (editable : Editable draft) (mirrored : Editable original) (small : draft.steps.length < 2 ^ 53)
    {edit : DraftEdit} (takes : edit.Takes draft) : Editable (edit.apply original draft) := by
  cases edit with
  | structural edit => exact (editable.structural small edit).1
  | runs stepId checked =>
    cases checked
    · exact editable.disableStep stepId
    · exact editable.enableStep stepId
  | patchStep stepId patch => exact editable.patched takes
  | startAt stepId => exact { editable with start := editable.isNumbered.mem_stepIds.mp takes }
  | rename text => exact { editable with header := { editable.header with name := takes } }
  | describe text => exact { editable with header := { editable.header with } }
  | categorise text => exact { editable with header := { editable.header with } }
  | enable checked => exact { editable with header := { editable.header with } }
  | toggleSchedule index checked => exact editable.toggled index checked
  | discard => exact mirrored

theorem enableStep_contents (editable : Editable definition) (stepId : Int) :
    (RemoteSqlAgent.enableStep definition stepId).definition.steps.map (·.content) =
      definition.steps.map (·.content) := by
  have numbered := editable.isNumbered
  by_cases there : stepId ∈ definition.stepIds
  · by_cases reached : stepId ∈ reachableSteps definition
    · obtain ⟨target, member, rfl⟩ := List.mem_map.mp there
      simp only [RemoteSqlAgent.enableStep, find_step numbered.distinct member, reached, ↓reduceIte]
    · rw [enableStep_definition numbered there reached, List.map_map]
      exact List.map_congr_left fun step _ => (enableInStep_frame step).2
  · rw [RemoteSqlAgent.enableStep, find_step_none there]

/-- Switching a step off or on leaves what is entered where it is. -/
theorem runs_contents (editable : Editable draft) (original : JobDefinition) (stepId : Int) (checked : Bool) :
    ((DraftEdit.runs stepId checked).apply original draft).steps.map (·.content) = draft.steps.map (·.content) := by
  cases checked
  · exact (disableStep_stepIds editable.isNumbered.distinct stepId).2
  · exact editable.enableStep_contents stepId

/-- Restructuring a draft keeps what is entered for its steps, and may add a new one. -/
theorem edited_contents (editable : Editable draft) (original : JobDefinition)
    (small : draft.steps.length < 2 ^ 53) {edit : DraftEdit} (restructures : edit.Restructures) : ∃ fresh : List JsString,
      ((edit.apply original draft).steps.map (·.content)).Perm
        (fresh.map (fun name => (newStepTemplate name).content) ++ draft.steps.map (·.content)) := by
  cases edit with
  | structural edit =>
    change ∃ fresh : List JsString, ((edit.apply draft).definition.steps.map (·.content)).Perm _
    rcases (editable.structural small edit).2 with same | left
    · exact ⟨[], by rw [same]; exact .refl _⟩
    · cases edit with
      | remove stepId => exact absurd restructures id
      | add afterStepId =>
        refine ⟨[nextStepName draft], left.trans (.of_eq ?_)⟩
        simp [StepEdit.leaves, StepEdit.arrivals, StepEdit.drops]
      | move _ _ | reorder _ _ =>
        refine ⟨[], left.trans (.of_eq ?_)⟩
        simp [StepEdit.leaves, StepEdit.arrivals, StepEdit.drops]
  | runs stepId checked => exact ⟨[], .of_eq (editable.runs_contents original stepId checked)⟩
  | patchStep stepId patch =>
    refine ⟨[], .of_eq ?_⟩
    change (updateStep draft stepId _).steps.map (·.content) = _
    rw [updateStep, List.map_map]
    refine List.map_congr_left fun step _ => ?_
    simp only [Function.comp_apply]
    split_ifs
    · cases patch with
      | action succeeded next => exact withBranch_content ..
      | target succeeded chosen => exact withBranch_content ..
      | name _ | subsystem _ | databaseName _ | retryAttempts _ | retryIntervalMinutes _ | command _ =>
        exact absurd restructures id
    · rfl
  | discard => exact absurd restructures id
  | startAt _ | rename _ | describe _ | categorise _ | enable _ | toggleSchedule _ _ => exact ⟨[], .refl _⟩

theorem edited_length (editable : Editable draft) (original : JobDefinition) (small : draft.steps.length < 2 ^ 53)
    (edit : DraftEdit) :
    (edit.apply original draft).steps.length ≤ max original.steps.length (draft.steps.length + 1) := by
  cases edit with
  | structural edit =>
    change (edit.apply draft).definition.steps.length ≤ _
    rcases (editable.structural small edit).2 with same | contents
    · rw [same]
      omega
    · have length := contents.length_eq
      rw [List.length_map] at length
      have bound := leaves_length draft edit
      omega
  | runs stepId checked =>
    have length := congrArg List.length (editable.runs_contents original stepId checked)
    rw [List.length_map, List.length_map] at length
    omega
  | patchStep stepId patch =>
    simp only [DraftEdit.apply, updateStep, List.length_map]
    omega
  | discard => exact le_max_left ..
  | startAt _ | rename _ | describe _ | categorise _ | enable _ | toggleSchedule _ _ =>
    exact le_trans (Nat.le_succ _) (le_max_right ..)

end Editable

/-! ## Sessions -/

section Sessions
variable {mayMake : JobDefinition → DraftEdit → Prop} {count : Nat}

/-- What an edit keeps, a session does. -/
theorem drafts_editable (mirrored : Editable original) (offered : ∀ draft edit, mayMake draft edit → edit.Takes draft)
    (short : original.steps.length + count < 2 ^ 53) (drafts : Drafts original mayMake count draft) :
    Editable draft ∧ draft.steps.length ≤ original.steps.length + count := by
  induction drafts with
  | opened => exact ⟨mirrored, le_refl _⟩
  | edited before edit makes ih =>
    obtain ⟨editable, bound⟩ := ih (by omega)
    have length := editable.edited_length original (by omega) edit
    exact ⟨editable.edited mirrored (by omega) (offered _ _ makes), by omega⟩

/-- The job of four steps with a name for each, as a new step would be named. -/
def namedJob : JobDefinition :=
  { branchingJob with steps := branchingJob.steps.map fun s => { s with name := numberedName s.stepId.toNat } }

private theorem namedJob_editable : Editable namedJob := by
  have wired : ∀ step ∈ namedJob.steps, ∀ succeeded, (step.action succeeded).natAbs < 2 ^ 53 ∧
      (0 ≤ step.target succeeded ∧ step.target succeeded ≤ namedJob.steps.length) ∧
        (step.action succeeded = StepAction.GoToStep → 1 ≤ step.target succeeded) := by decide
  have entered : ∀ step ∈ namedJob.steps, (1 ≤ step.name.length ∧ step.name.length ≤ 128) ∧
      (step.retryAttempts.natAbs < 2 ^ 53 ∧ 0 ≤ step.retryAttempts) ∧
        (step.retryIntervalMinutes.natAbs < 2 ^ 53 ∧ 0 ≤ step.retryIntervalMinutes) ∧
          step.flags.natAbs < 2 ^ 53 ∧ 0 ≤ step.flags := by decide
  have header : jobDefinitionSchema namedJob.header.toValue = some namedJob.header := by rfl
  refine ⟨by decide, by decide, fun step member succeeded => ?_, fun step member => ?_, by decide,
    jobDefinitionSchema_admissible header⟩
  · obtain ⟨action, target, jumps⟩ := wired step member succeeded
    exact ⟨action, target, jumps⟩
  · obtain ⟨name, attempts, interval, flags⟩ := entered step member
    exact ⟨name, attempts, interval, flags⟩

/-- A step switched off, one removed that another jumped to, and a new one made. -/
private theorem namedJob_drafts : Drafts namedJob (fun draft edit => edit.Takes draft) 3
    ([DraftEdit.runs 4 false, .structural (.remove 3), .structural (.add (some 1))].foldl
      (fun draft edit => edit.apply namedJob draft) namedJob) :=
  .edited (.edited (.edited .opened (.runs 4 false) trivial) (.structural (.remove 3)) trivial)
    (.structural (.add (some 1))) trivial

end Sessions

end RemoteSqlAgent
