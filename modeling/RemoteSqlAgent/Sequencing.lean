import RemoteSqlAgent.CallProgram

/-! Programs run one after the other on a state. Nothing comes between the calls
of a program, so the whole program is one step on the state. -/
namespace CallProgram

variable {Call : Type} {Answer : Call → Type} {Error α β State : Type}

/-- How a state answers a call, and what it is afterwards. -/
abbrev Responder (Answer : Call → Type) (State : Type) := State → (request : Call) → Answer request × State

/-- Run a program to its end: how it ends, and the state then. -/
def perform (respond : Responder Answer State) : State → CallProgram Call Answer Error α → Except Error α × State
  | state, done value => (.ok value, state)
  | state, throw error => (.error error, state)
  | state, call request next => perform respond (respond state request).2 (next (respond state request).1)

section Perform
variable {respond : Responder Answer State} {state after : State}

@[simp] theorem perform_done (value : α) :
    perform respond state (.done value : CallProgram Call Answer Error α) = (.ok value, state) := rfl

@[simp] theorem perform_pure (value : α) :
    perform respond state (pure value : CallProgram Call Answer Error α) = (.ok value, state) := rfl

@[simp] theorem perform_throw (error : Error) :
    perform respond state (.throw error : CallProgram Call Answer Error α) = (.error error, state) := rfl

@[simp] theorem perform_call {request : Call} {next : Answer request → CallProgram Call Answer Error α} :
    perform respond state (.call request next) =
      perform respond (respond state request).2 (next (respond state request).1) := rfl

/-- After a call the program goes on with what was answered. -/
theorem perform_call_of {request : Call} {next : Answer request → CallProgram Call Answer Error α}
    {answer : Answer request} (answered : respond state request = (answer, after)) :
    perform respond state (.call request next) = perform respond after (next answer) := by
  rw [perform_call, answered]

/-- In a sequence the second program starts on the state the first one leaves. -/
theorem perform_bind {program : CallProgram Call Answer Error α} {next : α → CallProgram Call Answer Error β}
    {value : α} (first : perform respond state program = (.ok value, after)) :
    perform respond state (program >>= next) = perform respond after (next value) := by
  change perform respond state (program.bind next) = _
  induction program generalizing state with
  | done result =>
    obtain ⟨same, rfl⟩ := Prod.mk.inj first
    cases same
    rfl
  | throw error => cases (Prod.mk.inj first).1
  | call request following ih => exact ih _ first

/-- A sequence stops at a program that throws. -/
theorem perform_bind_error {program : CallProgram Call Answer Error α} {next : α → CallProgram Call Answer Error β}
    {error : Error} (first : perform respond state program = (.error error, after)) :
    perform respond state (program >>= next) = (.error error, after) := by
  change perform respond state (program.bind next) = _
  induction program generalizing state with
  | done result => cases (Prod.mk.inj first).1
  | throw thrown =>
    obtain ⟨same, rfl⟩ := Prod.mk.inj first
    cases same
    rfl
  | call request following ih => exact ih _ first

/-- A program that ends with a value is not handled. -/
theorem perform_tryCatch {program : CallProgram Call Answer Error α} {handler : Error → CallProgram Call Answer Error α}
    {value : α} (first : perform respond state program = (.ok value, after)) :
    perform respond state (program.tryCatch handler) = (.ok value, after) := by
  induction program generalizing state with
  | done result => exact first
  | throw error => cases (Prod.mk.inj first).1
  | call request following ih => exact ih _ first

/-- What is thrown is handled on the state it leaves. -/
theorem perform_tryCatch_error {program : CallProgram Call Answer Error α}
    {handler : Error → CallProgram Call Answer Error α} {error : Error}
    (first : perform respond state program = (.error error, after)) :
    perform respond state (program.tryCatch handler) = perform respond after (handler error) := by
  induction program generalizing state with
  | done result => cases (Prod.mk.inj first).1
  | throw thrown =>
    obtain ⟨same, rfl⟩ := Prod.mk.inj first
    cases same
    rfl
  | call request following ih => exact ih _ first

/-- A loop over a list whose passes all succeed is a fold on the state. -/
theorem perform_forM (state : State) (items : List β) {body : β → CallProgram Call Answer Error PUnit}
    {step : State → β → State}
    (each : ∀ state, ∀ item ∈ items, perform respond state (body item) = (.ok ⟨⟩, step state item)) :
    perform respond state (items.forM body) = (.ok ⟨⟩, items.foldl step state) := by
  induction items generalizing state with
  | nil => rfl
  | cons item rest ih =>
    rw [List.forM_eq_forM, List.forM_cons, perform_bind (each state item List.mem_cons_self), List.foldl_cons]
    exact ih _ fun state other member => each state other (List.mem_cons_of_mem _ member)

end Perform

/-- A program that makes only some calls keeps what these calls keep. -/
theorem perform_keeps {respond : Responder Answer State} {allowed : Call → Prop} {holds : State → Prop}
    {program : CallProgram Call Answer Error α} (only : Within allowed program)
    (kept : ∀ state request, allowed request → holds state → holds (respond state request).2) {state : State}
    (first : holds state) : holds (perform respond state program).2 := by
  induction only generalizing state with
  | done value => exact first
  | throw error => exact first
  | call permitted _ ih => exact ih _ (kept _ _ permitted first)

/-- What a call leads to gives what each answer leads to. -/
theorem Gives.call {possible : α → Prop} {request : Call} {next : Answer request → CallProgram Call Answer Error α}
    (each : ∀ answer, Gives possible (next answer)) : Gives possible (.call request next) := by
  intro transcript value run
  obtain ⟨answer, later, rfl, onward⟩ := runs_call.mp run
  exact each answer later value onward

/-! ## Faults -/

/-- How a call goes wrong: it fails, it fails although it was done, or the program
is killed before it. -/
inductive Fault where
  | refused
  | unheard
  | killed
  deriving DecidableEq

/-- Run a program while calls go wrong, one entry of the list for each call: how it
ends if it does, the entries that are left, and the state. -/
def performUnder (respond : Responder Answer State) (failed : ∀ request, Answer request) :
    List (Option Fault) → State → CallProgram Call Answer Error α →
      Option (Except Error α) × List (Option Fault) × State
  | faults, state, done value => (some (.ok value), faults, state)
  | faults, state, throw error => (some (.error error), faults, state)
  | faults, state, call request next =>
    match faults.head?.join with
    | none => performUnder respond failed faults.tail (respond state request).2 (next (respond state request).1)
    | some .refused => performUnder respond failed faults.tail state (next (failed request))
    | some .unheard => performUnder respond failed faults.tail (respond state request).2 (next (failed request))
    | some .killed => (none, faults.tail, state)

section Faults
variable {respond : Responder Answer State} {failed : ∀ request, Answer request} {state : State}
variable {program : CallProgram Call Answer Error α} {faults : List (Option Fault)}

section Call
variable {request : Call} {next : Answer request → CallProgram Call Answer Error α}

theorem performUnder_done (well : faults.head?.join = none) :
    performUnder respond failed faults state (.call request next) =
      performUnder respond failed faults.tail (respond state request).2 (next (respond state request).1) := by
  rw [performUnder, well]

theorem performUnder_refused (wrong : faults.head?.join = some .refused) :
    performUnder respond failed faults state (.call request next) =
      performUnder respond failed faults.tail state (next (failed request)) := by
  rw [performUnder, wrong]

theorem performUnder_unheard (wrong : faults.head?.join = some .unheard) :
    performUnder respond failed faults state (.call request next) =
      performUnder respond failed faults.tail (respond state request).2 (next (failed request)) := by
  rw [performUnder, wrong]

theorem performUnder_killed (wrong : faults.head?.join = some .killed) :
    performUnder respond failed faults state (.call request next) = (none, faults.tail, state) := by
  rw [performUnder, wrong]

end Call

/-- Nothing goes wrong. -/
def Faultless (faults : List (Option Fault)) : Prop := ∀ fault ∈ faults, fault = none

instance (faults : List (Option Fault)) : Decidable (Faultless faults) :=
  inferInstanceAs (Decidable (∀ fault ∈ faults, fault = none))

theorem Faultless.head (quiet : Faultless faults) : faults.head?.join = none := by
  cases faults with
  | nil => rfl
  | cons fault rest => exact quiet fault List.mem_cons_self

theorem Faultless.tail (quiet : Faultless faults) : Faultless faults.tail :=
  fun fault member => quiet fault (List.mem_of_mem_tail member)

/-- If nothing goes wrong, the program runs to its end. -/
theorem performUnder_quiet (respond : Responder Answer State) (failed : ∀ request, Answer request) (state : State)
    (program : CallProgram Call Answer Error α) (quiet : Faultless faults) : ∃ left, Faultless left ∧
    performUnder respond failed faults state program =
      (some (perform respond state program).1, left, (perform respond state program).2) := by
  induction program generalizing state faults with
  | done value => exact ⟨faults, quiet, rfl⟩
  | throw error => exact ⟨faults, quiet, rfl⟩
  | call request next ih =>
    obtain ⟨left, still, same⟩ := ih (respond state request).1 (respond state request).2 quiet.tail
    exact ⟨left, still, (performUnder_done quiet.head).trans same⟩

/-- A program that makes only some calls keeps what these calls keep, whatever
goes wrong. -/
theorem performUnder_keeps {allowed : Call → Prop} {holds : State → Prop} (only : Within allowed program)
    (kept : ∀ state request, allowed request → holds state → holds (respond state request).2) (first : holds state) :
    holds (performUnder respond failed faults state program).2.2 := by
  induction only generalizing state faults with
  | done value => exact first
  | throw error => exact first
  | call permitted _ ih =>
    cases head : faults.head?.join with
    | none =>
      rw [performUnder_done head]
      exact ih _ (kept _ _ permitted first)
    | some fault =>
      cases fault with
      | refused =>
        rw [performUnder_refused head]
        exact ih _ first
      | unheard =>
        rw [performUnder_unheard head]
        exact ih _ (kept _ _ permitted first)
      | killed =>
        rw [performUnder_killed head]
        exact first

/-- What a program ends with, it can end with. -/
theorem runs_of_performUnder {ended : Except Error α}
    (result : (performUnder respond failed faults state program).1 = some ended) :
    ∃ transcript, Runs program transcript ended := by
  induction program generalizing state faults with
  | done value => exact ⟨[], Option.some.inj result ▸ .done value⟩
  | throw error => exact ⟨[], Option.some.inj result ▸ .throw error⟩
  | call request next ih =>
    rw [performUnder] at result
    split at result
    · obtain ⟨transcript, run⟩ := ih _ result
      exact ⟨_, .call _ run⟩
    · obtain ⟨transcript, run⟩ := ih _ result
      exact ⟨_, .call _ run⟩
    · obtain ⟨transcript, run⟩ := ih _ result
      exact ⟨_, .call _ run⟩
    · cases result

theorem gives_of_performUnder {possible : α → Prop} {value : α} (gives : Gives possible program)
    (result : (performUnder respond failed faults state program).1 = some (.ok value)) : possible value := by
  obtain ⟨transcript, run⟩ := runs_of_performUnder result
  exact gives transcript value run

/-! ## What a program ensures -/

/-- Whatever goes wrong, the state is so at the end, and so if the program ends with
a value. -/
def Ensures (respond : Responder Answer State) (failed : ∀ request, Answer request) (always : State → Prop)
    (ended : α → State → Prop) (state : State) (program : CallProgram Call Answer Error α) : Prop :=
  ∀ faults, always (performUnder respond failed faults state program).2.2 ∧
    ∀ value, (performUnder respond failed faults state program).1 = some (.ok value) →
      ended value (performUnder respond failed faults state program).2.2

namespace Ensures
variable {always : State → Prop} {ended : α → State → Prop}

theorem done (value : α) (here : always state) (holds : ended value state) :
    Ensures respond failed always ended state (.done value : CallProgram Call Answer Error α) := by
  refine fun faults => ⟨here, fun other same => ?_⟩
  cases same
  exact holds

theorem throw (error : Error) (here : always state) :
    Ensures respond failed always ended state (.throw error : CallProgram Call Answer Error α) := by
  refine fun faults => ⟨here, fun value same => ?_⟩
  cases same

/-- A call is answered, or it fails, done or not. -/
theorem call {request : Call} {next : Answer request → CallProgram Call Answer Error α} (here : always state)
    (heard : Ensures respond failed always ended (respond state request).2 (next (respond state request).1))
    (unheard : Ensures respond failed always ended (respond state request).2 (next (failed request)))
    (refused : Ensures respond failed always ended state (next (failed request))) :
    Ensures respond failed always ended state (.call request next) := by
  intro faults
  cases head : faults.head?.join with
  | none =>
    rw [performUnder_done head]
    exact heard faults.tail
  | some fault =>
    cases fault with
    | refused =>
      rw [performUnder_refused head]
      exact refused faults.tail
    | unheard =>
      rw [performUnder_unheard head]
      exact unheard faults.tail
    | killed =>
      rw [performUnder_killed head]
      refine ⟨here, fun value same => ?_⟩
      cases same

theorem bind {between : β → State → Prop} {first : CallProgram Call Answer Error β}
    {next : β → CallProgram Call Answer Error α} (before : Ensures respond failed always between state first)
    (after : ∀ value state, between value state → Ensures respond failed always ended state (next value)) :
    Ensures respond failed always ended state (first >>= next) := by
  intro faults
  change always (performUnder respond failed faults state (first.bind next)).2.2 ∧ _
  induction first generalizing state faults with
  | done value => exact after value state ((before faults).2 value rfl) faults
  | throw error => exact ⟨(before faults).1, fun value same => (by cases same)⟩
  | call request following ih =>
    have starts := before faults
    cases head : faults.head?.join with
    | none =>
      refine (performUnder_done head).symm ▸ ih _ (fun left => ?_) faults.tail
      have later := before (none :: left)
      rwa [performUnder_done (show (none :: left).head?.join = none from rfl)] at later
    | some fault =>
      cases fault with
      | refused =>
        refine (performUnder_refused head).symm ▸ ih _ (fun left => ?_) faults.tail
        have later := before (some .refused :: left)
        rwa [performUnder_refused (show (some Fault.refused :: left).head?.join = _ from rfl)] at later
      | unheard =>
        refine (performUnder_unheard head).symm ▸ ih _ (fun left => ?_) faults.tail
        have later := before (some .unheard :: left)
        rwa [performUnder_unheard (show (some Fault.unheard :: left).head?.join = _ from rfl)] at later
      | killed =>
        rw [performUnder_killed head] at starts
        refine (performUnder_killed head).symm ▸ ⟨starts.1, fun value same => ?_⟩
        cases same

/-- A loop keeps what each pass keeps. -/
theorem forM {holds : State → Prop} {items : List β} {body : β → CallProgram Call Answer Error PUnit}
    (kept : ∀ state, holds state → always state)
    (each : ∀ state, holds state → ∀ item ∈ items, Ensures respond failed always (fun _ => holds) state (body item))
    (first : holds state) : Ensures respond failed always (fun _ => holds) state (items.forM body) := by
  induction items generalizing state with
  | nil => exact .done _ (kept state first) first
  | cons item rest ih =>
    rw [List.forM_eq_forM, List.forM_cons]
    refine .bind (each state first item List.mem_cons_self) fun _ after held => ?_
    exact ih (fun state held other member => each state held other (List.mem_cons_of_mem _ member)) held

end Ensures

end Faults

end CallProgram
