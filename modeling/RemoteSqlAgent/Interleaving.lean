import RemoteSqlAgent.CallProgram
import Mathlib.Data.List.Chain

/-! Programs in flight on a shared state. A call is one atomic step on the state,
and between two calls of a program any calls of others can come. A program obeys
a rule if what it was told before allows each call it makes; what a call tells a
program goes on being true as long as no step makes it false. -/
namespace CallProgram

variable {Call : Type} {Answer : Call → Type} {Error α β State Op : Type}

/-- What a call can answer, and what the state can be after it. -/
abbrev Effect (Answer : Call → Type) (State : Type) :=
  State → (request : Call) → Answer request → State → Prop

/-- An operation that was started, what it was told, and what it has still to do. -/
structure Flight (Answer : Call → Type) (Error α Op : Type) where
  operation : Op
  said : List (Exchange Answer)
  program : CallProgram Call Answer Error α

/-- The state, and the operations on it. -/
structure Pool (Answer : Call → Type) (Error α State Op : Type) where
  state : State
  flights : List (Flight Answer Error α Op)

/-- A step of an operation, with what it was told before. -/
structure Taken (Answer : Call → Type) (State Op : Type) where
  operation : Op
  said : List (Exchange Answer)
  request : Call
  answer : Answer request
  before : State
  after : State

/-- The call of a step, with its answer. -/
def Taken.exchange (taken : Taken Answer State Op) : Exchange Answer := ⟨taken.request, taken.answer⟩

/-- Operations start at any time, and each call of one is a step. A run is the
list of the steps. -/
inductive Reaches (effect : Effect Answer State) (body : Op → CallProgram Call Answer Error α)
    (initial : State) : Pool Answer Error α State Op → List (Taken Answer State Op) → Prop where
  | start : Reaches effect body initial ⟨initial, []⟩ []
  | begin {pool : Pool Answer Error α State Op} {run : List (Taken Answer State Op)}
      (reaches : Reaches effect body initial pool run) (operation : Op) :
      Reaches effect body initial
        { pool with flights := pool.flights ++ [⟨operation, [], body operation⟩] } run
  | call {state after : State} {earlier later : List (Flight Answer Error α Op)} {operation : Op}
      {said : List (Exchange Answer)} {request : Call}
      {next : Answer request → CallProgram Call Answer Error α} {run : List (Taken Answer State Op)}
      (reaches : Reaches effect body initial
        ⟨state, earlier ++ ⟨operation, said, .call request next⟩ :: later⟩ run)
      (answer : Answer request) (does : effect state request answer after) :
      Reaches effect body initial
        ⟨after, earlier ++ ⟨operation, said ++ [⟨request, answer⟩], next answer⟩ :: later⟩
        (run ++ [⟨operation, said, request, answer, state, after⟩])

/-! ## Rules -/

/-- Each call the program makes is allowed by what was said before it. -/
inductive Obeys (rule : List (Exchange Answer) → Call → Prop) :
    List (Exchange Answer) → CallProgram Call Answer Error α → Prop where
  | done {said : List (Exchange Answer)} (value : α) : Obeys rule said (.done value)
  | throw {said : List (Exchange Answer)} (error : Error) : Obeys rule said (.throw error)
  | call {said : List (Exchange Answer)} {request : Call}
      {next : Answer request → CallProgram Call Answer Error α} (allowed : rule said request)
      (each : ∀ answer, Obeys rule (said ++ [⟨request, answer⟩]) (next answer)) :
      Obeys rule said (.call request next)

section Obeys
variable {rule : List (Exchange Answer) → Call → Prop} {said : List (Exchange Answer)}
  {program : CallProgram Call Answer Error α}

/-- In a sequence the second program must obey whatever was said in the first. -/
theorem Obeys.bind {after : α → CallProgram Call Answer Error β} (first : Obeys rule said program)
    (second : ∀ value later, Obeys rule (said ++ later) (after value)) : Obeys rule said (program >>= after) := by
  induction first with
  | done value =>
    have there := second value []
    rw [List.append_nil] at there
    exact there
  | throw error => exact .throw error
  | @call said request next allowed _ ih =>
    refine .call allowed fun answer => ih answer fun value later => ?_
    rw [List.append_assoc]
    exact second value ([⟨request, answer⟩] ++ later)

/-- A call whose answer is looked at next. -/
theorem Obeys.ask {request : Call} {next : Answer request → CallProgram Call Answer Error α}
    {after : α → CallProgram Call Answer Error β} (allowed : rule said request)
    (each : ∀ answer, Obeys rule (said ++ [⟨request, answer⟩]) (next answer >>= after)) :
    Obeys rule said (CallProgram.call request next >>= after) :=
  .call allowed each

theorem Obeys.ite {condition : Prop} [Decidable condition] {other : CallProgram Call Answer Error α}
    (first : condition → Obeys rule said program) (second : ¬ condition → Obeys rule said other) :
    Obeys rule said (if condition then program else other) := by
  split
  · exact first ‹_›
  · exact second ‹_›

/-- What a program throws is caught as a value. -/
theorem Obeys.attempt (obeys : Obeys rule said program) : Obeys rule said program.attempt := by
  induction obeys with
  | done value => exact .done _
  | throw error => exact .done _
  | call allowed _ ih => exact .call allowed ih

theorem obeys_any (program : CallProgram Call Answer Error α) : Obeys (fun _ _ => True) said program := by
  induction program generalizing said with
  | done value => exact .done value
  | throw error => exact .throw error
  | call request next ih => exact .call trivial fun answer => ih answer

theorem Obeys.mono {wider : List (Exchange Answer) → Call → Prop} (obeys : Obeys rule said program)
    (each : ∀ said request, rule said request → wider said request) : Obeys wider said program := by
  induction obeys with
  | done value => exact .done value
  | throw error => exact .throw error
  | call allowed _ ih => exact .call (each _ _ allowed) ih

theorem Within.obeys {allowed : Call → Prop} (within : Within allowed program) :
    Obeys (fun _ => allowed) said program := by
  induction within generalizing said with
  | done value => exact .done value
  | throw error => exact .throw error
  | call permitted _ ih => exact .call permitted fun answer => ih answer

/-- What was heard was heard before all that follows. -/
theorem obeys_heard {exchange : Exchange Answer} (program : CallProgram Call Answer Error α) (heard : exchange ∈ said) :
    Obeys (fun said _ => exchange ∈ said) said program := by
  induction program generalizing said with
  | done value => exact .done value
  | throw error => exact .throw error
  | call request next ih => exact .call heard fun answer => ih answer (List.mem_append_left _ heard)

end Obeys

/-- The program obeys a rule, and if it ends with a value, then in a condition
on what was said and the value. -/
inductive Meets (rule : List (Exchange Answer) → Call → Prop) (ends : List (Exchange Answer) → α → Prop) :
    List (Exchange Answer) → CallProgram Call Answer Error α → Prop where
  | done {said : List (Exchange Answer)} {value : α} (holds : ends said value) : Meets rule ends said (.done value)
  | throw {said : List (Exchange Answer)} (error : Error) : Meets rule ends said (.throw error)
  | call {said : List (Exchange Answer)} {request : Call}
      {next : Answer request → CallProgram Call Answer Error α} (allowed : rule said request)
      (each : ∀ answer, Meets rule ends (said ++ [⟨request, answer⟩]) (next answer)) :
      Meets rule ends said (.call request next)

section Meets
variable {rule : List (Exchange Answer) → Call → Prop} {said : List (Exchange Answer)}
  {program : CallProgram Call Answer Error α} {ends : List (Exchange Answer) → α → Prop}

theorem Meets.obeys (meets : Meets rule ends said program) : Obeys rule said program := by
  induction meets with
  | done holds => exact .done _
  | throw error => exact .throw error
  | call allowed _ ih => exact .call allowed ih

theorem Meets.imp {outcome : List (Exchange Answer) → α → Prop} (meets : Meets rule ends said program)
    (each : ∀ later value, ends later value → outcome later value) : Meets rule outcome said program := by
  induction meets with
  | done holds => exact .done (each _ _ holds)
  | throw error => exact .throw error
  | call allowed _ ih => exact .call allowed ih

/-- A program that obeys a rule only adds to what was said. -/
theorem Obeys.meets (obeys : Obeys rule said program) : Meets rule (fun later _ => said <+: later) said program := by
  suffices every : ∀ start, start <+: said → Meets rule (fun later _ => start <+: later) said program from
    every said List.prefix_rfl
  induction obeys with
  | done value => exact fun start shorter => .done shorter
  | throw error => exact fun start shorter => .throw error
  | call allowed _ ih =>
    exact fun start shorter => .call allowed fun answer => ih answer start (shorter.trans (List.prefix_append _ _))

/-- A program only adds to what was said. -/
theorem Meets.longer (meets : Meets rule ends said program) :
    Meets rule (fun later value => said <+: later ∧ ends later value) said program := by
  suffices every : ∀ start, start <+: said → Meets rule (fun later value => start <+: later ∧ ends later value) said
      program from every said List.prefix_rfl
  induction meets with
  | done holds => exact fun start shorter => .done ⟨shorter, holds⟩
  | throw error => exact fun start shorter => .throw error
  | call allowed _ ih =>
    exact fun start shorter => .call allowed fun answer => ih answer start (shorter.trans (List.prefix_append _ _))

/-- In a sequence the second program starts where the first one ends. -/
theorem Meets.bind {after : α → CallProgram Call Answer Error β} {outcome : List (Exchange Answer) → β → Prop}
    (first : Meets rule ends said program)
    (second : ∀ later value, ends later value → Meets rule outcome later (after value)) :
    Meets rule outcome said (program >>= after) := by
  induction first with
  | done holds => exact second _ _ holds
  | throw error => exact .throw error
  | call allowed _ ih => exact .call allowed ih

/-- A call whose answer is looked at next. -/
theorem Meets.ask {request : Call} {next : Answer request → CallProgram Call Answer Error α}
    {after : α → CallProgram Call Answer Error β} {outcome : List (Exchange Answer) → β → Prop}
    (allowed : rule said request)
    (each : ∀ answer, Meets rule outcome (said ++ [⟨request, answer⟩]) (next answer >>= after)) :
    Meets rule outcome said (CallProgram.call request next >>= after) :=
  .call allowed each

theorem Meets.ite {condition : Prop} [Decidable condition] {other : CallProgram Call Answer Error α}
    (first : condition → Meets rule ends said program) (second : ¬ condition → Meets rule ends said other) :
    Meets rule ends said (if condition then program else other) := by
  split
  · exact first ‹_›
  · exact second ‹_›

/-- What a program throws is caught as a value. Nothing is known then but that
more was said. -/
theorem Meets.attempt {outcome : List (Exchange Answer) → Except Error α → Prop}
    (meets : Meets rule ends said program) (value : ∀ later value, ends later value → outcome later (.ok value))
    (error : ∀ later error, said <+: later → outcome later (.error error)) :
    Meets rule outcome said program.attempt := by
  induction meets with
  | done holds => exact .done (value _ _ holds)
  | throw thrown => exact .done (error _ thrown List.prefix_rfl)
  | call allowed _ ih =>
    exact .call allowed fun answer => ih answer fun later thrown longer =>
      error later thrown ((List.prefix_append _ _).trans longer)

/-- A run of the program ends in the condition. -/
theorem Meets.ended (meets : Meets rule ends said program) {transcript : List (Exchange Answer)} {value : α}
    (run : Runs program transcript (.ok value)) : ends (said ++ transcript) value := by
  induction meets generalizing transcript with
  | done holds =>
    obtain ⟨rfl, same⟩ := runs_done.mp run
    cases same
    rwa [List.append_nil]
  | throw error => cases (runs_throw.mp run).2
  | call allowed _ ih =>
    obtain ⟨answer, later, rfl, onward⟩ := runs_call.mp run
    rw [List.append_cons]
    exact ih answer onward

end Meets

/-- The program obeys a rule, and wherever it ends, with a value or throwing, something
is so of what was said. -/
inductive Goes (rule : List (Exchange Answer) → Call → Prop) (ends : List (Exchange Answer) → α → Prop)
    (fails : List (Exchange Answer) → Error → Prop) :
    List (Exchange Answer) → CallProgram Call Answer Error α → Prop where
  | done {said : List (Exchange Answer)} {value : α} (holds : ends said value) : Goes rule ends fails said (.done value)
  | throw {said : List (Exchange Answer)} {error : Error} (holds : fails said error) :
      Goes rule ends fails said (.throw error)
  | call {said : List (Exchange Answer)} {request : Call}
      {next : Answer request → CallProgram Call Answer Error α} (allowed : rule said request)
      (each : ∀ answer, Goes rule ends fails (said ++ [⟨request, answer⟩]) (next answer)) :
      Goes rule ends fails said (.call request next)

section Goes
variable {rule : List (Exchange Answer) → Call → Prop} {said : List (Exchange Answer)}
  {program : CallProgram Call Answer Error α} {ends : List (Exchange Answer) → α → Prop}
  {fails : List (Exchange Answer) → Error → Prop}

theorem Goes.obeys (goes : Goes rule ends fails said program) : Obeys rule said program := by
  induction goes with
  | done holds => exact .done _
  | throw holds => exact .throw _
  | call allowed _ ih => exact .call allowed ih

theorem Goes.imp {outcome : List (Exchange Answer) → α → Prop} {thrown : List (Exchange Answer) → Error → Prop}
    (goes : Goes rule ends fails said program) (value : ∀ later value, ends later value → outcome later value)
    (error : ∀ later error, fails later error → thrown later error) : Goes rule outcome thrown said program := by
  induction goes with
  | done holds => exact .done (value _ _ holds)
  | throw holds => exact .throw (error _ _ holds)
  | call allowed _ ih => exact .call allowed ih

/-- A program that goes by something goes by what follows from it. -/
theorem Goes.mono {wider : List (Exchange Answer) → Call → Prop} {outcome : List (Exchange Answer) → α → Prop}
    {thrown : List (Exchange Answer) → Error → Prop} (goes : Goes rule ends fails said program)
    (each : ∀ later request, rule later request → wider later request)
    (value : ∀ later value, ends later value → outcome later value)
    (error : ∀ later error, fails later error → thrown later error) : Goes wider outcome thrown said program := by
  induction goes with
  | done holds => exact .done (value _ _ holds)
  | throw holds => exact .throw (error _ _ holds)
  | call allowed _ ih => exact .call (each _ _ allowed) ih

theorem Goes.bind {after : α → CallProgram Call Answer Error β} {outcome : List (Exchange Answer) → β → Prop}
    (first : Goes rule ends fails said program)
    (second : ∀ later value, ends later value → Goes rule outcome fails later (after value)) :
    Goes rule outcome fails said (program >>= after) := by
  induction first with
  | done holds => exact second _ _ holds
  | throw holds => exact .throw holds
  | call allowed _ ih => exact .call allowed ih

/-- What a program throws is caught as a value. -/
theorem Goes.attempt {outcome : List (Exchange Answer) → Except Error α → Prop}
    {thrown : List (Exchange Answer) → Error → Prop} (goes : Goes rule ends fails said program)
    (value : ∀ later value, ends later value → outcome later (.ok value))
    (error : ∀ later error, fails later error → outcome later (.error error)) :
    Goes rule outcome thrown said program.attempt := by
  induction goes with
  | done holds => exact .done (value _ _ holds)
  | throw holds => exact .done (error _ _ holds)
  | call allowed _ ih => exact .call allowed ih

/-- A handler goes on where a program throws. -/
theorem Goes.tryCatch {handler : Error → CallProgram Call Answer Error α}
    {thrown : List (Exchange Answer) → Error → Prop}
    (goes : Goes rule ends thrown said program)
    (handle : ∀ later error, thrown later error → Goes rule ends fails later (handler error)) :
    Goes rule ends fails said (program.tryCatch handler) := by
  induction goes with
  | done holds => exact .done holds
  | throw holds => exact handle _ _ holds
  | call allowed _ ih => exact .call allowed ih

/-- What a program goes by from where it starts, it goes by after whatever came before. -/
theorem Goes.after {before : List (Exchange Answer)} (goes : Goes (fun later => rule (before ++ later))
    (fun later => ends (before ++ later)) (fun later => fails (before ++ later)) said program) :
    Goes rule ends fails (before ++ said) program := by
  generalize isRule : (fun later => rule (before ++ later)) = relative at goes
  induction goes with
  | done holds => exact .done holds
  | throw holds => exact .throw holds
  | call allowed _ ih =>
    subst isRule
    refine .call allowed fun answer => ?_
    rw [List.append_assoc]
    exact ih answer

theorem Goes.ask {request : Call} {next : Answer request → CallProgram Call Answer Error α}
    {after : α → CallProgram Call Answer Error β} {outcome : List (Exchange Answer) → β → Prop}
    (allowed : rule said request)
    (each : ∀ answer, Goes rule outcome fails (said ++ [⟨request, answer⟩]) (next answer >>= after)) :
    Goes rule outcome fails said (CallProgram.call request next >>= after) :=
  .call allowed each

theorem Goes.ite {condition : Prop} [Decidable condition] {other : CallProgram Call Answer Error α}
    (first : condition → Goes rule ends fails said program) (second : ¬ condition → Goes rule ends fails said other) :
    Goes rule ends fails said (if condition then program else other) := by
  split
  · exact first ‹_›
  · exact second ‹_›

/-- A program that obeys a rule goes by it, and keeps what none of its calls changes. -/
theorem Obeys.goes {holds : List (Exchange Answer) → Prop} {makes : List (Exchange Answer) → Call → Prop}
    (obeys : Obeys makes said program) (first : holds said)
    (allowed : ∀ said request, makes said request → holds said → rule said request)
    (kept : ∀ said request answer, makes said request → holds said → holds (said ++ [⟨request, answer⟩])) :
    Goes rule (fun later _ => holds later) (fun later _ => holds later) said program := by
  induction obeys with
  | done value => exact .done first
  | throw error => exact .throw first
  | call made _ ih => exact .call (allowed _ _ made first) fun answer => ih answer (kept _ _ answer made first)

end Goes

/-! ## Parts of a larger program -/

/-- Run a program inside one with more calls, and catch what it throws. -/
def within {Wider : Type} {WiderAnswer : Wider → Type} {WiderError : Type} (embed : Call → Wider)
    (back : ∀ request, WiderAnswer (embed request) → Answer request) :
    CallProgram Call Answer Error α → CallProgram Wider WiderAnswer WiderError (Except Error α)
  | .done value => .done (.ok value)
  | .throw error => .done (.error error)
  | .call request next => .call (embed request) fun answer => (next (back request answer)).within embed back

/-- A program inside a larger one makes its own calls, and tells the larger one
only what they are answered. -/
theorem Meets.within {Wider : Type} {WiderAnswer : Wider → Type} {WiderError : Type} {embed : Call → Wider}
    {back : ∀ request, WiderAnswer (embed request) → Answer request} {makes : Call → Prop}
    {rule : List (Exchange WiderAnswer) → Wider → Prop} {holds : List (Exchange WiderAnswer) → Prop}
    {said : List (Exchange WiderAnswer)} {program : CallProgram Call Answer Error α}
    (obeys : Obeys (fun _ => makes) [] program) (first : holds said)
    (allowed : ∀ said request, makes request → holds said → rule said (embed request))
    (kept : ∀ said request answer, holds said → holds (said ++ [⟨embed request, answer⟩])) :
    Meets rule (fun said _ => holds said) said
      (program.within embed back : CallProgram Wider WiderAnswer WiderError (Except Error α)) := by
  generalize [] = inner at obeys
  induction obeys generalizing said with
  | done value => exact .done first
  | throw error => exact .done first
  | call made _ ih =>
    exact .call (allowed said _ made first) fun answer => ih _ (kept said _ answer first)

/-- Inside a larger program, a program that obeys a rule obeys it of what was said
in the calls of its kind. -/
theorem Meets.inside {Wider : Type} {WiderAnswer : Wider → Type} {WiderError : Type} {embed : Call → Wider}
    {back : ∀ request, WiderAnswer (embed request) → Answer request}
    (heard : Exchange WiderAnswer → Option (Exchange Answer)) {rule : List (Exchange Answer) → Call → Prop}
    {ends : List (Exchange Answer) → α → Prop} {wider : List (Exchange WiderAnswer) → Wider → Prop}
    {said : List (Exchange WiderAnswer)} {program : CallProgram Call Answer Error α}
    (hears : ∀ request answer, heard ⟨embed request, answer⟩ = some ⟨request, back request answer⟩)
    (allowed : ∀ said request, rule (said.filterMap heard) request → wider said (embed request))
    (meets : Meets rule ends (said.filterMap heard) program) :
    Meets wider (fun later result => said <+: later ∧ ∀ value, result = .ok value → ends (later.filterMap heard) value)
      said (program.within embed back : CallProgram Wider WiderAnswer WiderError (Except Error α)) := by
  suffices every : ∀ inner, Meets rule ends inner program → ∀ said start : List (Exchange WiderAnswer),
      said.filterMap heard = inner → start <+: said →
        Meets wider (fun later result => start <+: later ∧ ∀ value, result = .ok value →
          ends (later.filterMap heard) value) said
          (program.within embed back : CallProgram Wider WiderAnswer WiderError (Except Error α)) from
    every _ meets said said rfl List.prefix_rfl
  clear meets
  intro inner meets
  induction meets with
  | done holds =>
    rintro said start rfl shorter
    refine .done ⟨shorter, fun value same => ?_⟩
    cases same
    exact holds
  | throw error =>
    rintro said start - shorter
    exact .done ⟨shorter, fun value same => nomatch same⟩
  | @call inner request next permitted _ ih =>
    rintro said start rfl shorter
    refine .call (allowed said request permitted) fun answer => ih _ _ start ?_ (shorter.trans (List.prefix_append _ _))
    rw [List.filterMap_append]
    exact congrArg (said.filterMap heard ++ ·) (List.filterMap_cons_some (hears request answer))

/-- Inside a larger program, a program goes by what was said in the calls of its kind. -/
theorem Goes.inside {Wider : Type} {WiderAnswer : Wider → Type} {WiderError : Type} {embed : Call → Wider}
    {back : ∀ request, WiderAnswer (embed request) → Answer request}
    (heard : Exchange WiderAnswer → Option (Exchange Answer)) {rule : List (Exchange Answer) → Call → Prop}
    {ends : List (Exchange Answer) → α → Prop} {fails : List (Exchange Answer) → Error → Prop}
    {wider : List (Exchange WiderAnswer) → Wider → Prop} {never : List (Exchange WiderAnswer) → WiderError → Prop}
    {said : List (Exchange WiderAnswer)} {program : CallProgram Call Answer Error α}
    (hears : ∀ request answer, heard ⟨embed request, answer⟩ = some ⟨request, back request answer⟩)
    (allowed : ∀ said request, rule (said.filterMap heard) request → wider said (embed request))
    (goes : Goes rule ends fails (said.filterMap heard) program) :
    Goes wider (fun later result => (∀ value, result = .ok value → ends (later.filterMap heard) value) ∧
      ∀ error, result = .error error → fails (later.filterMap heard) error) never said
      (program.within embed back : CallProgram Wider WiderAnswer WiderError (Except Error α)) := by
  generalize isSaid : said.filterMap heard = inner at goes
  induction goes generalizing said with
  | done holds =>
    subst isSaid
    refine .done ⟨fun value same => ?_, fun error same => (by cases same)⟩
    cases same
    exact holds
  | throw holds =>
    subst isSaid
    refine .done ⟨fun value same => (by cases same), fun error same => ?_⟩
    cases same
    exact holds
  | @call inner request next permitted _ ih =>
    subst isSaid
    refine .call (allowed said request permitted) fun answer => ih _ ?_
    rw [List.filterMap_append]
    exact congrArg (said.filterMap heard ++ ·) (List.filterMap_cons_some (hears request answer))

/-! ## Lists, one element after the other -/

/-- Something holds of each element of a list, with those before it. -/
def AtEach {Step : Type} (holds : List Step → Step → Prop) (run : List Step) : Prop :=
  ∀ earlier step later, run = earlier ++ step :: later → holds earlier step

theorem atEach_nil {Step : Type} {holds : List Step → Step → Prop} : AtEach holds [] := by
  intro earlier step later split
  simp at split

theorem atEach_concat {Step : Type} {holds : List Step → Step → Prop} {run : List Step} {last : Step} :
    AtEach holds (run ++ [last]) ↔ AtEach holds run ∧ holds run last := by
  constructor
  · intro each
    refine ⟨fun earlier step later split => each earlier step (later ++ [last]) ?_, each run last [] rfl⟩
    rw [split, List.append_assoc, List.cons_append]
  · rintro ⟨each, final⟩ earlier step later split
    rcases List.eq_nil_or_concat' later with rfl | ⟨between, tip, rfl⟩
    · obtain ⟨rfl, same⟩ := List.append_inj' split rfl
      cases same
      exact final
    · rw [← List.cons_append, ← List.append_assoc] at split
      exact each earlier step between (List.append_inj' split rfl).1

theorem atEach_of_getElem {Step : Type} {holds : List Step → Step → Prop} {run : List Step}
    (each : ∀ i, ∀ there : i < run.length, holds (run.take i) run[i]) : AtEach holds run := by
  rintro earlier step later rfl
  have here := each earlier.length (by simp)
  simpa using here

theorem AtEach.of_mem {Step : Type} {holds : Step → Prop} {run : List Step} (each : AtEach (fun _ => holds) run)
    {step : Step} (member : step ∈ run) : holds step := by
  obtain ⟨earlier, later, split⟩ := List.append_of_mem member
  exact each earlier step later split

/-! ## Runs -/

section Runs
variable {effect : Effect Answer State} {body : Op → CallProgram Call Answer Error α} {initial : State}
  {pool : Pool Answer Error α State Op} {run : List (Taken Answer State Op)}

/-- Every step is one the calls can take. -/
theorem Reaches.does (reaches : Reaches effect body initial pool run) :
    ∀ taken ∈ run, effect taken.before taken.request taken.answer taken.after := by
  induction reaches with
  | start => simp
  | begin _ _ ih => exact ih
  | call _ answer does ih =>
    intro taken member
    rcases List.mem_append.mp member with earlier | last
    · exact ih taken earlier
    · cases List.mem_singleton.mp last
      exact does

/-- Each step starts where the one before it ended. -/
theorem Reaches.chain (reaches : Reaches effect body initial pool run) :
    run.IsChain (fun step next => step.after = next.before) ∧
      ((run = [] ∧ pool.state = initial) ∨ ∃ last, run.getLast? = some last ∧ last.after = pool.state) := by
  induction reaches with
  | start => exact ⟨.nil, .inl ⟨rfl, rfl⟩⟩
  | begin _ _ ih => exact ih
  | call _ answer does ih =>
    obtain ⟨chain, ended⟩ := ih
    refine ⟨chain.append (.singleton _) ?_, .inr ⟨_, List.getLast?_concat, rfl⟩⟩
    rintro last isLast next ⟨⟩
    rcases ended with ⟨rfl, -⟩ | ⟨other, found, same⟩
    · cases isLast
    · cases isLast.symm.trans found
      exact same

/-- The rule that an operation obeys allows each of its steps. -/
theorem Reaches.allowed (reaches : Reaches effect body initial pool run)
    (rule : Op → List (Exchange Answer) → Call → Prop)
    (obey : ∀ operation, Obeys (rule operation) [] (body operation)) :
    (∀ flight ∈ pool.flights, Obeys (rule flight.operation) flight.said flight.program) ∧
      ∀ taken ∈ run, rule taken.operation taken.said taken.request := by
  induction reaches with
  | start => simp
  | begin _ operation ih =>
    refine ⟨fun flight member => ?_, ih.2⟩
    rcases List.mem_append.mp member with earlier | last
    · exact ih.1 flight earlier
    · cases List.mem_singleton.mp last
      exact obey operation
  | @call state after earlier later operation said request next run _ answer does ih =>
    have here := ih.1 ⟨operation, said, .call request next⟩ (List.mem_append_right _ List.mem_cons_self)
    cases here with
    | call permitted each =>
      constructor
      · intro flight member
        rcases List.mem_append.mp member with before | rest
        · exact ih.1 flight (List.mem_append_left _ before)
        · rcases List.mem_cons.mp rest with rfl | behind
          · exact each answer
          · exact ih.1 flight (List.mem_append_right _ (List.mem_cons_of_mem _ behind))
      · intro taken member
        rcases List.mem_append.mp member with before | last
        · exact ih.2 taken before
        · cases List.mem_singleton.mp last
          exact permitted

/-- What a program goes by, its rest goes by. -/
theorem Reaches.goes (reaches : Reaches effect body initial pool run)
    {rule : Op → List (Exchange Answer) → Call → Prop} {ends : Op → List (Exchange Answer) → α → Prop}
    {fails : Op → List (Exchange Answer) → Error → Prop}
    (go : ∀ operation, Goes (rule operation) (ends operation) (fails operation) [] (body operation)) :
    ∀ flight ∈ pool.flights, Goes (rule flight.operation) (ends flight.operation) (fails flight.operation)
      flight.said flight.program := by
  induction reaches with
  | start => simp
  | begin _ operation ih =>
    intro flight member
    rcases List.mem_append.mp member with earlier | last
    · exact ih flight earlier
    · cases List.mem_singleton.mp last
      exact go operation
  | @call state after earlier later operation said request next run _ answer does ih =>
    have here := ih ⟨operation, said, .call request next⟩ (List.mem_append_right _ List.mem_cons_self)
    intro flight member
    rcases List.mem_append.mp member with before | rest
    · exact ih flight (List.mem_append_left _ before)
    · rcases List.mem_cons.mp rest with rfl | behind
      · cases here with
        | call _ each => exact each answer
      · exact ih flight (List.mem_append_right _ (List.mem_cons_of_mem _ behind))

/-- **What operations were told stays true**, in the light of what they were told
before, if each step makes true what it tells, and no step makes false what was
true. -/
theorem Reaches.recalls (reaches : Reaches effect body initial pool run)
    (known : List (Exchange Answer) → Exchange Answer → State → Prop)
    (tells : ∀ taken ∈ run, AtEach (fun earlier exchange => known earlier exchange taken.before) taken.said →
      known taken.said ⟨taken.request, taken.answer⟩ taken.after)
    (stays : ∀ taken ∈ run, ∀ earlier exchange, known earlier exchange taken.before →
      known earlier exchange taken.after) :
    (∀ flight ∈ pool.flights, AtEach (fun earlier exchange => known earlier exchange pool.state) flight.said) ∧
      ∀ taken ∈ run, AtEach (fun earlier exchange => known earlier exchange taken.before) taken.said := by
  induction reaches with
  | start => simp
  | begin _ operation ih =>
    obtain ⟨flying, past⟩ := ih tells stays
    refine ⟨fun flight member => ?_, past⟩
    rcases List.mem_append.mp member with earlier | last
    · exact flying flight earlier
    · cases List.mem_singleton.mp last
      exact atEach_nil
  | @call state after earlier later operation said request next run _ answer does ih =>
    obtain ⟨flying, past⟩ := ih (fun taken member => tells taken (List.mem_append_left _ member))
      (fun taken member => stays taken (List.mem_append_left _ member))
    have newest : (⟨operation, said, request, answer, state, after⟩ : Taken Answer State Op) ∈
        run ++ [⟨operation, said, request, answer, state, after⟩] := List.mem_append_right _ List.mem_cons_self
    have still : ∀ {heard : List (Exchange Answer)},
        AtEach (fun earlier exchange => known earlier exchange state) heard →
          AtEach (fun earlier exchange => known earlier exchange after) heard :=
      fun knew before exchange behind split => stays _ newest before exchange (knew before exchange behind split)
    have mine := flying ⟨operation, said, .call request next⟩ (List.mem_append_right _ List.mem_cons_self)
    constructor
    · intro flight member
      rcases List.mem_append.mp member with before | rest
      · exact still (flying flight (List.mem_append_left _ before))
      · rcases List.mem_cons.mp rest with rfl | behind
        · exact atEach_concat.mpr ⟨still mine, tells _ newest mine⟩
        · exact still (flying flight (List.mem_append_right _ (List.mem_cons_of_mem _ behind)))
    · intro taken member
      rcases List.mem_append.mp member with before | last
      · exact past taken before
      · cases List.mem_singleton.mp last
        exact mine

/-- What operations were told stays true, whatever they were told before. -/
theorem Reaches.told (reaches : Reaches effect body initial pool run) (known : Exchange Answer → State → Prop)
    (tells : ∀ taken ∈ run, known ⟨taken.request, taken.answer⟩ taken.after)
    (stays : ∀ taken ∈ run, ∀ exchange, known exchange taken.before → known exchange taken.after) :
    (∀ flight ∈ pool.flights, ∀ exchange ∈ flight.said, known exchange pool.state) ∧
      ∀ taken ∈ run, ∀ exchange ∈ taken.said, known exchange taken.before := by
  obtain ⟨flying, past⟩ := reaches.recalls (fun _ exchange state => known exchange state)
    (fun taken member _ => tells taken member) fun taken member _ exchange => stays taken member exchange
  exact ⟨fun flight member exchange heard => (flying flight member).of_mem heard,
    fun taken member exchange heard => (past taken member).of_mem heard⟩

/-- What holds at the start and after every step holds throughout. -/
theorem Reaches.invariant (reaches : Reaches effect body initial pool run) (holds : State → Prop)
    (first : holds initial) (kept : ∀ taken ∈ run, holds taken.before → holds taken.after) :
    holds pool.state ∧ ∀ taken ∈ run, holds taken.before := by
  induction reaches with
  | start => exact ⟨first, by simp⟩
  | begin _ _ ih => exact ih kept
  | @call state after earlier later operation said request next run _ answer does ih =>
    obtain ⟨here, past⟩ := ih fun taken member => kept taken (List.mem_append_left _ member)
    refine ⟨kept _ (List.mem_append_right _ List.mem_cons_self) here, fun taken member => ?_⟩
    rcases List.mem_append.mp member with before | last
    · exact past taken before
    · cases List.mem_singleton.mp last
      exact here

/-- What a step made true, and no later step makes false, is true when any later
step is taken. -/
theorem Reaches.since (reaches : Reaches effect body initial pool run) (holds : State → Prop)
    {earlier later : List (Taken Answer State Op)} {taken made : Taken Answer State Op}
    (split : run = earlier ++ taken :: later) (member : made ∈ earlier) (first : holds made.after)
    (kept : ∀ step ∈ run, holds step.before → holds step.after) :
    holds taken.before := by
  obtain ⟨before, between, rfl⟩ := List.append_of_mem member
  have chain : (made :: (between ++ taken :: later)).IsChain fun step next => step.after = next.before := by
    have whole := reaches.chain.1
    rw [split, List.append_assoc, List.cons_append] at whole
    exact (List.isChain_append.mp whole).2.1
  have inside : ∀ step ∈ between, step ∈ run := fun step there => by
    rw [split]
    simp [there]
  clear split member
  induction between generalizing made with
  | nil =>
    rw [List.nil_append, List.isChain_cons_cons] at chain
    exact chain.1 ▸ first
  | cons step between ih =>
    rw [List.cons_append, List.isChain_cons_cons] at chain
    exact ih (kept step (inside step List.mem_cons_self) (chain.1 ▸ first)) chain.2 fun other there =>
      inside other (List.mem_cons_of_mem _ there)

end Runs

/-- A list around an element of it. -/
theorem split_at_getElem? {Step : Type} {run : List Step} {index : Nat} {step : Step}
    (found : run[index]? = some step) : run = run.take index ++ step :: run.drop (index + 1) := by
  obtain ⟨small, same⟩ := List.getElem?_eq_some_iff.mp found
  conv => lhs; rw [← List.take_append_drop index run, List.drop_eq_getElem_cons small, same]

/-! ## Operations one after the other -/

/-- Run with nothing in between, the program takes the state to another. -/
inductive Alone (effect : Effect Answer State) : State → CallProgram Call Answer Error α →
  List (Exchange Answer) → State →
    Except Error α → Prop where
  | done {state : State} (value : α) : Alone effect state (.done value) [] state (.ok value)
  | throw {state : State} (error : Error) : Alone effect state (.throw error) [] state (.error error)
  | call {state middle after : State} {request : Call} {next : Answer request → CallProgram Call Answer Error α}
      {transcript : List (Exchange Answer)} {ended : Except Error α} (answer : Answer request)
      (does : effect state request answer middle) (later : Alone effect middle (next answer) transcript after ended) :
      Alone effect state (.call request next) (⟨request, answer⟩ :: transcript) after ended

section Alone
variable {effect : Effect Answer State} {state after : State} {transcript : List (Exchange Answer)}

theorem alone_done {value : α} {ended : Except Error α} :
    Alone effect state (.done value : CallProgram Call Answer Error α) transcript after ended ↔
      transcript = [] ∧ after = state ∧ ended = .ok value := by
  constructor
  · intro alone
    cases alone
    exact ⟨rfl, rfl, rfl⟩
  · rintro ⟨rfl, rfl, rfl⟩
    exact .done value

theorem alone_call {request : Call} {next : Answer request → CallProgram Call Answer Error α} {ended : Except Error α} :
    Alone effect state (.call request next) transcript after ended ↔
      ∃ answer middle later, transcript = ⟨request, answer⟩ :: later ∧ effect state request answer middle ∧
        Alone effect middle (next answer) later after ended := by
  constructor
  · intro alone
    cases alone with
    | call answer does later => exact ⟨answer, _, _, rfl, does, later⟩
  · rintro ⟨answer, middle, later, rfl, does, onward⟩
    exact .call answer does onward

/-- A sequence stops at the first program that throws, or runs both. -/
theorem alone_bind {program : CallProgram Call Answer Error α} {next : α → CallProgram Call Answer Error β}
    {ended : Except Error β} :
    Alone effect state (program >>= next) transcript after ended ↔
      (∃ error, Alone effect state program transcript after (.error error) ∧ ended = .error error) ∨
        ∃ value middle first second, transcript = first ++ second ∧
          Alone effect state program first middle (.ok value) ∧
          Alone effect middle (next value) second after ended := by
  change Alone effect state (program.bind next) transcript after ended ↔ _
  induction program generalizing state transcript with
  | done value =>
    constructor
    · exact fun alone => .inr ⟨value, state, [], transcript, rfl, .done value, alone⟩
    · rintro (⟨error, thrown, -⟩ | ⟨other, middle, first, second, rfl, ran, onward⟩)
      · cases (alone_done.mp thrown).2.2
      · obtain ⟨rfl, rfl, same⟩ := alone_done.mp ran
        cases same
        exact onward
  | throw error =>
    constructor
    · intro alone
      cases alone
      exact .inl ⟨error, .throw error, rfl⟩
    · rintro (⟨other, thrown, rfl⟩ | ⟨value, middle, first, second, rfl, ran, onward⟩)
      · cases thrown
        exact .throw error
      · cases ran
  | call request rest ih =>
    simp only [bind, alone_call, ih]
    constructor
    · rintro ⟨answer, middle, later, rfl, does, ⟨error, thrown, same⟩ | ⟨value, third, first, second, rfl, ran, onward⟩⟩
      · exact .inl ⟨error, ⟨answer, middle, later, rfl, does, thrown⟩, same⟩
      · exact .inr ⟨value, third, ⟨request, answer⟩ :: first, second, rfl,
          ⟨answer, middle, first, rfl, does, ran⟩, onward⟩
    · rintro (⟨error, ⟨answer, middle, later, rfl, does, thrown⟩, same⟩ |
        ⟨value, third, _, second, rfl, ⟨answer, middle, later, rfl, does, ran⟩, onward⟩)
      · exact ⟨answer, middle, later, rfl, does, .inl ⟨error, thrown, same⟩⟩
      · exact ⟨answer, middle, later ++ second, rfl, does, .inr ⟨value, third, later, second, rfl, ran, onward⟩⟩

theorem alone_throw {error : Error} {ended : Except Error α} :
    Alone effect state (.throw error : CallProgram Call Answer Error α) transcript after ended ↔
      transcript = [] ∧ after = state ∧ ended = .error error := by
  constructor
  · intro alone
    cases alone
    exact ⟨rfl, rfl, rfl⟩
  · rintro ⟨rfl, rfl, rfl⟩
    exact .throw error

/-- A handler runs after a program that throws, and only then. -/
theorem alone_tryCatch {program : CallProgram Call Answer Error α} {handler : Error → CallProgram Call Answer Error α}
    {ended : Except Error α} :
    Alone effect state (program.tryCatch handler) transcript after ended ↔
      (∃ value, Alone effect state program transcript after (.ok value) ∧ ended = .ok value) ∨
        ∃ error middle first second, transcript = first ++ second ∧
          Alone effect state program first middle (.error error) ∧
          Alone effect middle (handler error) second after ended := by
  induction program generalizing state transcript with
  | done value =>
    constructor
    · intro alone
      obtain ⟨rfl, rfl, rfl⟩ := alone_done.mp alone
      exact .inl ⟨value, .done value, rfl⟩
    · rintro (⟨other, ran, rfl⟩ | ⟨error, middle, first, second, rfl, thrown, -⟩)
      · exact ran
      · cases (alone_done.mp thrown).2.2
  | throw error =>
    constructor
    · exact fun alone => .inr ⟨error, state, [], transcript, rfl, .throw error, alone⟩
    · rintro (⟨other, ran, -⟩ | ⟨other, middle, first, second, rfl, thrown, onward⟩)
      · cases ran
      · obtain ⟨rfl, rfl, same⟩ := alone_throw.mp thrown
        cases same
        exact onward
  | call request rest ih =>
    simp only [tryCatch, alone_call, ih]
    constructor
    · rintro ⟨answer, middle, later, rfl, does, ⟨value, ran, same⟩ | ⟨error, third, first, second, rfl, thrown, onward⟩⟩
      · exact .inl ⟨value, ⟨answer, middle, later, rfl, does, ran⟩, same⟩
      · exact .inr ⟨error, third, ⟨request, answer⟩ :: first, second, rfl,
          ⟨answer, middle, first, rfl, does, thrown⟩, onward⟩
    · rintro (⟨value, ⟨answer, middle, later, rfl, does, ran⟩, same⟩ |
        ⟨error, third, _, second, rfl, ⟨answer, middle, later, rfl, does, thrown⟩, onward⟩)
      · exact ⟨answer, middle, later, rfl, does, .inl ⟨value, ran, same⟩⟩
      · exact ⟨answer, middle, later ++ second, rfl, does, .inr ⟨error, third, later, second, rfl, thrown, onward⟩⟩

/-- Turning what is thrown into a value changes nothing else. -/
theorem alone_attempt {program : CallProgram Call Answer Error α} {ended : Except Error (Except Error α)} :
    Alone effect state program.attempt transcript after ended ↔
      ∃ inner, Alone effect state program transcript after inner ∧ ended = .ok inner := by
  induction program generalizing state transcript with
  | done value =>
    constructor
    · intro alone
      obtain ⟨rfl, rfl, rfl⟩ := alone_done.mp alone
      exact ⟨Except.ok value, .done value, rfl⟩
    · rintro ⟨inner, ran, rfl⟩
      obtain ⟨rfl, rfl, rfl⟩ := alone_done.mp ran
      exact .done (Except.ok value)
  | throw error =>
    constructor
    · intro alone
      obtain ⟨rfl, rfl, rfl⟩ := alone_done.mp alone
      exact ⟨Except.error error, .throw error, rfl⟩
    · rintro ⟨inner, ran, rfl⟩
      obtain ⟨rfl, rfl, rfl⟩ := alone_throw.mp ran
      exact .done (Except.error error)
  | call request next ih =>
    simp only [attempt, alone_call, ih]
    constructor
    · rintro ⟨answer, middle, later, rfl, does, inner, ran, same⟩
      exact ⟨inner, ⟨answer, middle, later, rfl, does, ran⟩, same⟩
    · rintro ⟨inner, ⟨answer, middle, later, rfl, does, ran⟩, same⟩
      exact ⟨answer, middle, later, rfl, does, inner, ran, same⟩

end Alone

/-- An operation that was run alone. -/
structure Performed (Answer : Call → Type) (State Op : Type) where
  operation : Op
  transcript : List (Exchange Answer)
  before : State
  after : State

/-- Operations run one after the other, each to its end. -/
inductive Sequenced (effect : Effect Answer State) (body : Op → CallProgram Call Answer Error α) (initial : State) :
    State → List (Performed Answer State Op) → Prop where
  | start : Sequenced effect body initial initial []
  | perform {state after : State} {run : List (Performed Answer State Op)} {transcript : List (Exchange Answer)}
      {ended : Except Error α} (sequenced : Sequenced effect body initial state run) (operation : Op)
      (alone : Alone effect state (body operation) transcript after ended) :
      Sequenced effect body initial after (run ++ [⟨operation, transcript, state, after⟩])

/-- Run a program to its end in a world that may answer. -/
def playAlone (world : State → (request : Call) → Option (Answer request × State)) :
    State → CallProgram Call Answer Error α →
    Option (List (Exchange Answer) × State × Except Error α)
  | state, .done value => some ([], state, .ok value)
  | state, .throw error => some ([], state, .error error)
  | state, .call request next =>
    match world state request with
    | none => none
    | some (answer, middle) =>
      (playAlone world middle (next answer)).map fun (transcript, after, ended) =>
        (⟨request, answer⟩ :: transcript, after, ended)

theorem alone_of_playAlone {effect : Effect Answer State}
    {world : State → (request : Call) → Option (Answer request × State)}
    (right : ∀ state request answer after, world state request = some (answer, after) →
      effect state request answer after)
    {program : CallProgram Call Answer Error α} {state after : State} {transcript : List (Exchange Answer)}
    {ended : Except Error α} (played : playAlone world state program = some (transcript, after, ended)) :
    Alone effect state program transcript after ended := by
  induction program generalizing state transcript with
  | done value =>
    cases played
    exact .done value
  | throw error =>
    cases played
    exact .throw error
  | call request next ih =>
    unfold playAlone at played
    split at played
    · cases played
    · rename_i answer middle answered
      obtain ⟨⟨rest, last, ends⟩, onward, same⟩ := Option.map_eq_some_iff.mp played
      cases same
      exact .call answer (right _ _ _ _ answered) (ih answer onward)

/-- Perform an operation in a world. One that is not answered is left out. -/
def performNext (body : Op → CallProgram Call Answer Error α) (performed : State × List (Performed Answer State Op))
    (next : Op × (State → (request : Call) → Option (Answer request × State))) :
    State × List (Performed Answer State Op) :=
  match playAlone next.2 performed.1 (body next.1) with
  | none => performed
  | some (transcript, after, _) => (after, performed.2 ++ [⟨next.1, transcript, performed.1, after⟩])

theorem sequenced_performNext {effect : Effect Answer State} {body : Op → CallProgram Call Answer Error α}
    {initial : State}
    (plan : List (Op × (State → (request : Call) → Option (Answer request × State))))
    (right : ∀ part ∈ plan, ∀ state request answer after,
      part.2 state request = some (answer, after) → effect state request answer after) :
    Sequenced effect body initial (plan.foldl (performNext body) (initial, [])).1
      (plan.foldl (performNext body) (initial, [])).2 := by
  refine List.foldlRecOn
    (motive := fun performed : State × List (Performed Answer State Op) =>
      Sequenced effect body initial performed.1 performed.2) plan _ .start fun performed sequenced part member => ?_
  unfold performNext
  split
  · exact sequenced
  · rename_i transcript after ended played
    exact .perform sequenced _ (alone_of_playAlone (right part member) played)

/-! ## Schedules -/

/-- Start an operation, or let one take its next step in a world that may answer. -/
inductive Move (Answer : Call → Type) (State Op : Type) where
  | begin (operation : Op)
  | step (index : Nat) (world : State → (request : Call) → Option (Answer request × State))

/-- Make a move. An operation that has ended, or is not answered, takes no step. -/
def Pool.play (body : Op → CallProgram Call Answer Error α) :
    Pool Answer Error α State Op × List (Taken Answer State Op) → Move Answer State Op →
      Pool Answer Error α State Op × List (Taken Answer State Op)
  | (pool, run), .begin operation =>
    ({ pool with flights := pool.flights ++ [⟨operation, [], body operation⟩] }, run)
  | (pool, run), .step index world =>
    match pool.flights[index]? with
    | some ⟨operation, said, .call request next⟩ =>
      match world pool.state request with
      | none => (pool, run)
      | some (answer, after) =>
        (⟨after, pool.flights.take index ++
            ⟨operation, said ++ [⟨request, answer⟩], next answer⟩ :: pool.flights.drop (index + 1)⟩,
          run ++ [⟨operation, said, request, answer, pool.state, after⟩])
    | _ => (pool, run)

/-- Whatever is played in worlds that answer rightly can happen. -/
theorem reaches_play {effect : Effect Answer State} {body : Op → CallProgram Call Answer Error α} {initial : State}
    (moves : List (Move Answer State Op))
    (right : ∀ index world, .step index world ∈ moves → ∀ state request answer after,
      world state request = some (answer, after) → effect state request answer after) :
    Reaches effect body initial (moves.foldl (Pool.play body) (⟨initial, []⟩, [])).1
      (moves.foldl (Pool.play body) (⟨initial, []⟩, [])).2 := by
  refine List.foldlRecOn
    (motive := fun played : Pool Answer Error α State Op × List (Taken Answer State Op) =>
      Reaches effect body initial played.1 played.2) moves _ .start fun played reaches move member => ?_
  obtain ⟨pool, run⟩ := played
  cases move with
  | begin operation => exact .begin reaches operation
  | step index world =>
    simp only [Pool.play]
    split
    · rename_i operation said request next found
      have here : Reaches effect body initial ⟨pool.state, pool.flights.take index ++
          ⟨operation, said, .call request next⟩ :: pool.flights.drop (index + 1)⟩ run := by
        rw [← split_at_getElem? found]
        exact reaches
      split
      · exact reaches
      · rename_i answer after answered
        exact .call here answer (right index world member pool.state request answer after answered)
    · exact reaches

/-- Only operations that were begun take steps. -/
theorem begun_of_played {body : Op → CallProgram Call Answer Error α} {initial : State}
    (moves : List (Move Answer State Op)) :
    ∀ taken ∈ (moves.foldl (Pool.play body) (⟨initial, []⟩, [])).2, .begin taken.operation ∈ moves := by
  refine (List.foldlRecOn
    (motive := fun played : Pool Answer Error α State Op × List (Taken Answer State Op) =>
      (∀ flight ∈ played.1.flights, .begin flight.operation ∈ moves) ∧ ∀ taken ∈ played.2,
        .begin taken.operation ∈ moves)
    moves _ (by simp) fun played ⟨flying, past⟩ move member => ?_).2
  obtain ⟨pool, run⟩ := played
  cases move with
  | begin operation =>
    refine ⟨fun flight there => ?_, past⟩
    rcases List.mem_append.mp there with old | new
    · exact flying flight old
    · cases List.mem_singleton.mp new
      exact member
  | step index world =>
    simp only [Pool.play]
    split
    · rename_i operation said request next found
      have mine := flying _ (List.mem_of_getElem? found)
      split
      · exact ⟨flying, past⟩
      · constructor
        · intro flight there
          rcases List.mem_append.mp there with old | rest
          · exact flying flight (List.mem_of_mem_take old)
          · rcases List.mem_cons.mp rest with rfl | later
            · exact mine
            · exact flying flight (List.mem_of_mem_drop later)
        · intro taken there
          rcases List.mem_append.mp there with old | new
          · exact past taken old
          · cases List.mem_singleton.mp new
            exact mine
    · exact ⟨flying, past⟩

end CallProgram
