import Mathlib.Data.List.Basic

/-! Programs that act on the world only by making calls and getting answers. A
program is the tree of what it does next for each answer; the transcript of a
run is the calls it made with the answers it got. Nothing is assumed about the
answers, so a statement about every run covers every way a call can fail. -/

/-- A program ends with a value, throws, or makes a call and goes on with its
answer. -/
inductive CallProgram (Call : Type) (Answer : Call → Type) (Error α : Type) where
  | done (value : α)
  | throw (error : Error)
  | call (request : Call) (next : Answer request → CallProgram Call Answer Error α)

namespace CallProgram

variable {Call : Type} {Answer : Call → Type} {Error α β : Type}

def bind : CallProgram Call Answer Error α → (α → CallProgram Call Answer Error β) →
    CallProgram Call Answer Error β
  | done value, after => after value
  | throw error, _ => throw error
  | call request next, after => call request fun answer => (next answer).bind after

instance : Monad (CallProgram Call Answer Error) where
  pure := done
  bind := bind

@[simp] theorem done_bind (value : α) (after : α → CallProgram Call Answer Error β) :
    (done value >>= after) = after value := rfl

@[simp] theorem throw_bind (error : Error) (after : α → CallProgram Call Answer Error β) :
    ((throw error : CallProgram Call Answer Error α) >>= after) = throw error := rfl

/-- `try program catch handler`. -/
def tryCatch : CallProgram Call Answer Error α → (Error → CallProgram Call Answer Error α) →
    CallProgram Call Answer Error α
  | done value, _ => done value
  | throw error, handler => handler error
  | call request next, handler => call request fun answer => (next answer).tryCatch handler

/-- The program with what it throws turned into a value. -/
def attempt : CallProgram Call Answer Error α → CallProgram Call Answer Error (Except Error α)
  | done value => done (.ok value)
  | throw error => done (.error error)
  | call request next => call request fun answer => (next answer).attempt

/-- A call with its answer. -/
abbrev Exchange (Answer : Call → Type) := (request : Call) × Answer request

/-- The program can make these calls, get these answers and end so. -/
inductive Runs : CallProgram Call Answer Error α → List (Exchange Answer) → Except Error α → Prop where
  | done (value : α) : Runs (done value) [] (.ok value)
  | throw (error : Error) : Runs (throw error) [] (.error error)
  | call {request : Call} {next : Answer request → CallProgram Call Answer Error α}
      {transcript : List (Exchange Answer)} {ended : Except Error α} (answer : Answer request)
      (later : Runs (next answer) transcript ended) :
      Runs (call request next) (⟨request, answer⟩ :: transcript) ended

section Rules
variable {program : CallProgram Call Answer Error α} {after : α → CallProgram Call Answer Error β}
  {transcript : List (Exchange Answer)} {value : α}

@[simp] theorem runs_done {ended : Except Error α} :
    Runs (.done value : CallProgram Call Answer Error α) transcript ended ↔
      transcript = [] ∧ ended = .ok value := by
  constructor
  · intro run
    cases run
    exact ⟨rfl, rfl⟩
  · rintro ⟨rfl, rfl⟩
    exact .done value

@[simp] theorem runs_pure {ended : Except Error α} :
    Runs (pure value : CallProgram Call Answer Error α) transcript ended ↔
      transcript = [] ∧ ended = .ok value := runs_done

@[simp] theorem runs_throw {error : Error} {ended : Except Error α} :
    Runs (.throw error : CallProgram Call Answer Error α) transcript ended ↔
      transcript = [] ∧ ended = .error error := by
  constructor
  · intro run
    cases run
    exact ⟨rfl, rfl⟩
  · rintro ⟨rfl, rfl⟩
    exact .throw error

@[simp] theorem runs_call {request : Call} {next : Answer request → CallProgram Call Answer Error α}
    {ended : Except Error α} :
    Runs (.call request next) transcript ended ↔
      ∃ answer later, transcript = ⟨request, answer⟩ :: later ∧ Runs (next answer) later ended := by
  constructor
  · intro run
    cases run with
    | call answer later => exact ⟨answer, _, rfl, later⟩
  · rintro ⟨answer, later, rfl, run⟩
    exact .call answer run

/-- A sequence stops at the first program that throws, or runs both. -/
theorem runs_bind {ended : Except Error β} :
    Runs (program >>= after) transcript ended ↔
      (∃ error, Runs program transcript (.error error) ∧ ended = .error error) ∨
        ∃ value first second, transcript = first ++ second ∧ Runs program first (.ok value) ∧
          Runs (after value) second ended := by
  change Runs (program.bind after) transcript ended ↔ _
  induction program generalizing transcript with
  | done value => simp [bind]
  | throw error => simp [bind]
  | call request next ih =>
    simp only [bind, runs_call, ih]
    constructor
    · rintro ⟨answer, later, rfl, ⟨error, run, same⟩ | ⟨value, first, second, rfl, run, rest⟩⟩
      · exact .inl ⟨error, ⟨answer, later, rfl, run⟩, same⟩
      · exact .inr ⟨value, ⟨request, answer⟩ :: first, second, rfl, ⟨answer, first, rfl, run⟩, rest⟩
    · rintro (⟨error, ⟨answer, later, rfl, run⟩, same⟩ |
        ⟨value, _, second, rfl, ⟨answer, later, rfl, run⟩, rest⟩)
      · exact ⟨answer, later, rfl, .inl ⟨error, run, same⟩⟩
      · exact ⟨answer, later ++ second, rfl, .inr ⟨value, later, second, rfl, run, rest⟩⟩

/-- A handler runs after a program that throws, and only then. -/
theorem runs_tryCatch {handler : Error → CallProgram Call Answer Error α} {ended : Except Error α} :
    Runs (program.tryCatch handler) transcript ended ↔
      (∃ value, Runs program transcript (.ok value) ∧ ended = .ok value) ∨
        ∃ error first second, transcript = first ++ second ∧ Runs program first (.error error) ∧
          Runs (handler error) second ended := by
  induction program generalizing transcript with
  | done value => simp [tryCatch]
  | throw error => simp [tryCatch]
  | call request next ih =>
    simp only [tryCatch, runs_call, ih]
    constructor
    · rintro ⟨answer, later, rfl, ⟨value, run, same⟩ | ⟨error, first, second, rfl, run, rest⟩⟩
      · exact .inl ⟨value, ⟨answer, later, rfl, run⟩, same⟩
      · exact .inr ⟨error, ⟨request, answer⟩ :: first, second, rfl, ⟨answer, first, rfl, run⟩, rest⟩
    · rintro (⟨value, ⟨answer, later, rfl, run⟩, same⟩ |
        ⟨error, _, second, rfl, ⟨answer, later, rfl, run⟩, rest⟩)
      · exact ⟨answer, later, rfl, .inl ⟨value, run, same⟩⟩
      · exact ⟨answer, later ++ second, rfl, .inr ⟨error, later, second, rfl, run, rest⟩⟩

/-- Turning what is thrown into a value changes nothing else. -/
theorem runs_attempt {ended : Except Error (Except Error α)} :
    Runs program.attempt transcript ended ↔ ∃ inner, Runs program transcript inner ∧ ended = .ok inner := by
  induction program generalizing transcript with
  | done value => simp [attempt]
  | throw error => simp [attempt]
  | call request next ih =>
    simp only [attempt, runs_call, ih]
    constructor
    · rintro ⟨answer, later, rfl, inner, run, same⟩
      exact ⟨inner, ⟨answer, later, rfl, run⟩, same⟩
    · rintro ⟨inner, ⟨answer, later, rfl, run⟩, same⟩
      exact ⟨answer, later, rfl, inner, run, same⟩

end Rules

/-- The calls and their answers determine how a run ends. -/
theorem Runs.ended_unique {program : CallProgram Call Answer Error α} {transcript : List (Exchange Answer)}
    {ended other : Except Error α} (first : Runs program transcript ended)
    (second : Runs program transcript other) : ended = other := by
  induction first with
  | done value =>
    cases second
    rfl
  | throw error =>
    cases second
    rfl
  | call answer _ ih =>
    cases second with
    | call _ later => exact ih later

/-! ## Running against a given world -/

/-- A world answers a call in the light of what was said before. -/
abbrev World (Answer : Call → Type) := List (Exchange Answer) → (request : Call) → Answer request

/-- Run to the end: the exchanges after those said before, and how it ends. -/
def runIn (world : World Answer) : List (Exchange Answer) → CallProgram Call Answer Error α →
    List (Exchange Answer) × Except Error α
  | _, done value => ([], .ok value)
  | _, throw error => ([], .error error)
  | said, call request next =>
    let answer := world said request
    let rest := runIn world (said ++ [⟨request, answer⟩]) (next answer)
    (⟨request, answer⟩ :: rest.1, rest.2)

/-- Every program ends, whatever the world answers. -/
theorem runs_runIn (world : World Answer) (said : List (Exchange Answer))
    (program : CallProgram Call Answer Error α) :
    Runs program (runIn world said program).1 (runIn world said program).2 := by
  induction program generalizing said with
  | done value => exact .done value
  | throw error => exact .throw error
  | call request next ih => exact .call _ (ih _ _)

/-! ## Programs that stay within a set of calls -/

/-- Every call the program can make, on any answers, is one of these. -/
inductive Within (allowed : Call → Prop) : CallProgram Call Answer Error α → Prop where
  | done (value : α) : Within allowed (done value)
  | throw (error : Error) : Within allowed (throw error)
  | call {request : Call} {next : Answer request → CallProgram Call Answer Error α}
      (permitted : allowed request) (each : ∀ answer, Within allowed (next answer)) :
      Within allowed (call request next)

section Within
variable {allowed : Call → Prop} {program : CallProgram Call Answer Error α}

theorem Within.bind {after : α → CallProgram Call Answer Error β} (first : Within allowed program)
    (second : ∀ value, Within allowed (after value)) : Within allowed (program >>= after) := by
  induction first with
  | done value => exact second value
  | throw error => exact .throw error
  | call permitted _ ih => exact .call permitted ih

theorem Within.mono {wider : Call → Prop} (within : Within allowed program)
    (each : ∀ request, allowed request → wider request) : Within wider program := by
  induction within with
  | done value => exact .done value
  | throw error => exact .throw error
  | call permitted _ ih => exact .call (each _ permitted) ih

theorem Within.ite {condition : Prop} [Decidable condition] {other : CallProgram Call Answer Error α}
    (first : Within allowed program) (second : Within allowed other) :
    Within allowed (if condition then program else other) := by
  split
  · exact first
  · exact second

theorem Within.tryCatch {handler : Error → CallProgram Call Answer Error α}
    (first : Within allowed program) (second : ∀ error, Within allowed (handler error)) :
    Within allowed (program.tryCatch handler) := by
  induction first with
  | done value => exact .done value
  | throw error => exact second error
  | call permitted _ ih => exact .call permitted ih

theorem Within.forM {items : List β} {body : β → CallProgram Call Answer Error PUnit}
    (each : ∀ item ∈ items, Within allowed (body item)) : Within allowed (items.forM body) := by
  induction items with
  | nil => exact .done _
  | cons item rest ih =>
    rw [List.forM_eq_forM, List.forM_cons]
    exact (each item List.mem_cons_self).bind fun _ =>
      ih fun other member => each other (List.mem_cons_of_mem _ member)

/-- A run of such a program makes no other calls. -/
theorem Within.exchanges (within : Within allowed program) {transcript : List (Exchange Answer)}
    {ended : Except Error α} (run : Runs program transcript ended) :
    ∀ exchange ∈ transcript, allowed exchange.1 := by
  induction run with
  | done | throw => simp
  | call answer _ ih =>
    cases within with
    | call permitted each => exact List.forall_mem_cons.mpr ⟨permitted, ih (each answer)⟩

end Within

/-! ## What a program can give -/

/-- Every value the program can end with is one of these. -/
def Gives (possible : α → Prop) (program : CallProgram Call Answer Error α) : Prop :=
  ∀ transcript value, Runs program transcript (.ok value) → possible value

section Gives
variable {possible : α → Prop} {program : CallProgram Call Answer Error α}

theorem Gives.done {value : α} (holds : possible value) :
    Gives possible (.done value : CallProgram Call Answer Error α) := by
  intro transcript result run
  obtain ⟨-, same⟩ := runs_done.mp run
  exact Except.ok.inj same ▸ holds

theorem Gives.throw {error : Error} : Gives possible (.throw error : CallProgram Call Answer Error α) := by
  intro transcript result run
  cases (runs_throw.mp run).2

/-- What a sequence gives is what its last program gives. -/
theorem Gives.bind {first : CallProgram Call Answer Error β} {after : β → CallProgram Call Answer Error α}
    (each : ∀ value, Gives possible (after value)) : Gives possible (first >>= after) := by
  intro transcript result run
  rcases runs_bind.mp run with ⟨_, -, same⟩ | ⟨value, _, later, -, -, onward⟩
  · cases same
  · exact each value later result onward

theorem Gives.tryCatch {handler : Error → CallProgram Call Answer Error α} (first : Gives possible program)
    (second : ∀ error, Gives possible (handler error)) : Gives possible (program.tryCatch handler) := by
  intro transcript result run
  rcases runs_tryCatch.mp run with ⟨value, gave, same⟩ | ⟨error, _, later, -, -, onward⟩
  · exact Except.ok.inj same ▸ first transcript value gave
  · exact second error later result onward

theorem Gives.ite {condition : Prop} [Decidable condition] {other : CallProgram Call Answer Error α}
    (first : Gives possible program) (second : Gives possible other) :
    Gives possible (if condition then program else other) := by
  split
  · exact first
  · exact second

end Gives

end CallProgram
