import RemoteSqlAgent.Interleaving

/-! Runs that say which operation took each step. An operation is named by its place
among those that were started, and its steps are what it was told. -/
namespace CallProgram

variable {Call : Type} {Answer : Call → Type} {Error α State Op : Type}

/-- Operations start at any time, and each call of one is a step. A run is the list of
the steps, with the place of the operation that took each. -/
inductive Traces (effect : Effect Answer State) (body : Op → CallProgram Call Answer Error α)
    (initial : State) : Pool Answer Error α State Op → List (Nat × Taken Answer State Op) → Prop where
  | start : Traces effect body initial ⟨initial, []⟩ []
  | begin {pool : Pool Answer Error α State Op} {run : List (Nat × Taken Answer State Op)}
      (traces : Traces effect body initial pool run) (operation : Op) :
      Traces effect body initial
        { pool with flights := pool.flights ++ [⟨operation, [], body operation⟩] } run
  | call {state after : State} {earlier later : List (Flight Answer Error α Op)} {operation : Op}
      {said : List (Exchange Answer)} {request : Call}
      {next : Answer request → CallProgram Call Answer Error α} {run : List (Nat × Taken Answer State Op)}
      (traces : Traces effect body initial
        ⟨state, earlier ++ ⟨operation, said, .call request next⟩ :: later⟩ run)
      (answer : Answer request) (does : effect state request answer after) :
      Traces effect body initial
        ⟨after, earlier ++ ⟨operation, said ++ [⟨request, answer⟩], next answer⟩ :: later⟩
        (run ++ [(earlier.length, ⟨operation, said, request, answer, state, after⟩)])

/-- The steps that the operation at a place took. -/
def stepsOf (place : Nat) (run : List (Nat × Taken Answer State Op)) : List (Taken Answer State Op) :=
  (run.filter fun step => step.1 = place).map Prod.snd

theorem mem_stepsOf {place : Nat} {run : List (Nat × Taken Answer State Op)} {taken : Taken Answer State Op} :
    taken ∈ stepsOf place run ↔ (place, taken) ∈ run := by
  unfold stepsOf
  constructor
  · intro member
    obtain ⟨⟨number, step⟩, there, rfl⟩ := List.mem_map.mp member
    obtain ⟨there, same⟩ := List.mem_filter.mp there
    rw [← show number = place from of_decide_eq_true same]
    exact there
  · intro member
    exact List.mem_map.mpr ⟨_, List.mem_filter.mpr ⟨member, decide_eq_true rfl⟩, rfl⟩

theorem stepsOf_concat (place number : Nat) (run : List (Nat × Taken Answer State Op)) (taken : Taken Answer State Op) :
    stepsOf place (run ++ [(number, taken)]) = stepsOf place run ++ if number = place then [taken] else [] := by
  unfold stepsOf
  rw [List.filter_append, List.map_append, List.filter_singleton]
  by_cases same : number = place
  · simp [same]
  · simp [same]

section Traces
variable {effect : Effect Answer State} {body : Op → CallProgram Call Answer Error α} {initial : State}
  {pool : Pool Answer Error α State Op} {run : List (Nat × Taken Answer State Op)}

/-- What is so of runs is so of these. -/
theorem Traces.reaches (traces : Traces effect body initial pool run) :
    Reaches effect body initial pool (run.map Prod.snd) := by
  induction traces with
  | start => exact .start
  | begin _ operation ih => exact .begin ih operation
  | call _ answer does ih =>
    rw [List.map_append]
    exact .call ih answer does

/-- **The steps of an operation are what it was told**, each in the light of those
before it. -/
theorem Traces.steps (traces : Traces effect body initial pool run) :
    (∀ step ∈ run, step.1 < pool.flights.length) ∧
      ∀ place flight, pool.flights[place]? = some flight →
        (stepsOf place run).map Taken.exchange = flight.said ∧
          AtEach (fun earlier taken => taken.operation = flight.operation ∧ taken.said = earlier.map Taken.exchange)
            (stepsOf place run) := by
  induction traces with
  | start => simp
  | @begin pool run _ operation ih =>
    obtain ⟨small, each⟩ := ih
    refine ⟨fun step member => ?_, fun place flight found => ?_⟩
    · rw [List.length_append, List.length_singleton]
      exact Nat.lt_succ_of_lt (small step member)
    · rcases Nat.lt_or_ge place pool.flights.length with inside | outside
      · rw [List.getElem?_append_left inside] at found
        exact each place flight found
      · have idle : stepsOf place run = [] := List.eq_nil_iff_forall_not_mem.mpr fun taken member =>
          absurd (small _ (mem_stepsOf.mp member)) (Nat.not_lt.mpr outside)
        rw [List.getElem?_append_right outside] at found
        cases List.mem_singleton.mp (List.mem_of_getElem? found)
        rw [idle]
        exact ⟨rfl, atEach_nil⟩
  | @call state after earlier later operation said request next run _ answer does ih =>
    obtain ⟨small, each⟩ := ih
    have mine := each earlier.length ⟨operation, said, .call request next⟩ (by simp)
    constructor
    · intro step member
      rcases List.mem_append.mp member with before | last
      · simpa using small step before
      · cases List.mem_singleton.mp last
        simp
    · intro place flight found
      rw [stepsOf_concat]
      by_cases same : earlier.length = place
      · subst same
        rw [List.getElem?_append_right Nat.le.refl, Nat.sub_self, List.getElem?_cons_zero] at found
        cases found
        rw [if_pos rfl, List.map_append, List.map_singleton, mine.1]
        exact ⟨rfl, atEach_concat.mpr ⟨mine.2, rfl, mine.1.symm⟩⟩
      · rw [if_neg same, List.append_nil]
        refine each place flight ?_
        rw [← found]
        rcases Nat.lt_or_ge place earlier.length with inside | outside
        · rw [List.getElem?_append_left inside, List.getElem?_append_left inside]
        · obtain ⟨beyond, rfl⟩ := Nat.exists_eq_add_of_lt (Nat.lt_of_le_of_ne outside same)
          rw [List.getElem?_append_right outside, List.getElem?_append_right outside,
            show earlier.length + beyond + 1 - earlier.length = beyond + 1 by omega, List.getElem?_cons_succ,
            List.getElem?_cons_succ]

/-- Each thing that an operation was told, it was told in a step. -/
theorem Traces.step_of_said (traces : Traces effect body initial pool run) {place : Nat}
    {flight : Flight Answer Error α Op}
    (found : pool.flights[place]? = some flight) {earlier later : List (Exchange Answer)} {exchange : Exchange Answer}
    (split : flight.said = earlier ++ exchange :: later) :
    ∃ taken ∈ stepsOf place run, taken.exchange = exchange ∧ taken.said = earlier ∧
      taken.operation = flight.operation := by
  obtain ⟨same, each⟩ := traces.steps.2 place flight found
  rw [split] at same
  obtain ⟨first, rest, steps, rfl, onward⟩ := List.map_eq_append_iff.mp same
  obtain ⟨taken, last, rfl, rfl, -⟩ := List.map_eq_cons_iff.mp onward
  obtain ⟨operated, told⟩ := each first taken last steps
  exact ⟨taken, by rw [steps]; simp, rfl, told, operated⟩

/-- What a step made true, and no later step makes false, is true in the end. -/
theorem Reaches.lasts {steps : List (Taken Answer State Op)} (reaches : Reaches effect body initial pool steps)
    {holds : State → Prop} {made : Taken Answer State Op} (member : made ∈ steps) (first : holds made.after)
    (kept : ∀ step ∈ steps, holds step.before → holds step.after) : holds pool.state := by
  induction reaches with
  | start => cases member
  | begin _ _ ih => exact ih member kept
  | @call state after earlier later operation said request next steps _ answer does ih =>
    rcases List.mem_append.mp member with old | new
    · exact kept _ (List.mem_append_right _ List.mem_cons_self) (ih old fun step there =>
        kept step (List.mem_append_left _ there))
    · cases List.mem_singleton.mp new
      exact first

/-- Two steps that are not one come one after the other. -/
theorem order_of_mem {Step : Type} {steps : List Step} {first second : Step} (one : first ∈ steps)
    (other : second ∈ steps) :
    first = second ∨ (∃ earlier later, steps = earlier ++ second :: later ∧ first ∈ earlier) ∨
      ∃ earlier later, steps = earlier ++ first :: later ∧ second ∈ earlier := by
  obtain ⟨earlier, later, rfl⟩ := List.append_of_mem one
  rcases List.mem_append.mp other with before | rest
  · exact .inr (.inr ⟨earlier, later, rfl, before⟩)
  · rcases List.mem_cons.mp rest with same | behind
    · exact .inl same.symm
    · obtain ⟨between, last, rfl⟩ := List.append_of_mem behind
      refine .inr (.inl ⟨earlier ++ first :: between, last, by simp, by simp⟩)

/-- What is so after a step of its kind, and was not so before it, is brought about once:
two steps of the kind are one step of one operation. -/
theorem Traces.once (traces : Traces effect body initial pool run) {holds : State → Prop}
    (kept : ∀ step ∈ run, holds step.2.before → holds step.2.after) {first second : Nat × Taken Answer State Op}
    (one : first ∈ run) (other : second ∈ run) (firstMakes : ¬ holds first.2.before ∧ holds first.2.after)
    (secondMakes : ¬ holds second.2.before ∧ holds second.2.after) : first = second := by
  have stays : ∀ taken ∈ run.map Prod.snd, holds taken.before → holds taken.after := by
    intro taken member
    obtain ⟨step, there, rfl⟩ := List.mem_map.mp member
    exact kept step there
  have apart : ∀ {made step : Nat × Taken Answer State Op} {earlier later : List (Nat × Taken Answer State Op)},
      run = earlier ++ step :: later → made ∈ earlier → holds made.2.after → holds step.2.before := by
    intro made step earlier later split member holding
    have whole : run.map Prod.snd = earlier.map Prod.snd ++ step.2 :: later.map Prod.snd := by
      rw [split, List.map_append, List.map_cons]
    exact traces.reaches.since holds whole (List.mem_map_of_mem member) holding stays
  rcases order_of_mem one other with same | ⟨earlier, later, split, before⟩ | ⟨earlier, later, split, before⟩
  · exact same
  · exact absurd (apart split before firstMakes.2) secondMakes.1
  · exact absurd (apart split before secondMakes.2) firstMakes.1

/-- In every run each step was taken by an operation. -/
theorem Reaches.traced {steps : List (Taken Answer State Op)} (reaches : Reaches effect body initial pool steps) :
    ∃ run, run.map Prod.snd = steps ∧ Traces effect body initial pool run := by
  induction reaches with
  | start => exact ⟨[], rfl, .start⟩
  | begin _ operation ih =>
    obtain ⟨run, same, traces⟩ := ih
    exact ⟨run, same, traces.begin operation⟩
  | call _ answer does ih =>
    obtain ⟨run, rfl, traces⟩ := ih
    exact ⟨_, List.map_append, traces.call answer does⟩

/-- What an operation was told, it was told in one of its steps. -/
theorem Reaches.heard {steps : List (Taken Answer State Op)} (reaches : Reaches effect body initial pool steps)
    {flight : Flight Answer Error α Op} (member : flight ∈ pool.flights) {earlier later : List (Exchange Answer)}
    {exchange : Exchange Answer} (split : flight.said = earlier ++ exchange :: later) :
    ∃ taken ∈ steps, taken.exchange = exchange ∧ taken.said = earlier ∧ taken.operation = flight.operation := by
  obtain ⟨run, rfl, traces⟩ := reaches.traced
  obtain ⟨place, found⟩ := List.getElem?_of_mem member
  obtain ⟨taken, there, same⟩ := traces.step_of_said found split
  exact ⟨taken, List.mem_map_of_mem (mem_stepsOf.mp there), same⟩

/-- Up to any of its steps a run is a run, at whose end the operation of that step is in flight. -/
theorem Reaches.cut {steps : List (Taken Answer State Op)} (reaches : Reaches effect body initial pool steps)
    {earlier later : List (Taken Answer State Op)} {taken : Taken Answer State Op}
    (split : steps = earlier ++ taken :: later) :
    ∃ before : Pool Answer Error α State Op, Reaches effect body initial before earlier ∧
      before.state = taken.before ∧
      ∃ flight ∈ before.flights, flight.operation = taken.operation ∧ flight.said = taken.said := by
  induction reaches generalizing later with
  | start => simp at split
  | begin _ _ ih => exact ih split
  | @call state after first rest operation said request next run reaches answer does ih =>
    rcases List.eq_nil_or_concat later with rfl | ⟨before, last, rfl⟩
    · obtain ⟨rfl, same⟩ := List.append_inj' split rfl
      cases same
      exact ⟨_, reaches, rfl, _, List.mem_append_right _ List.mem_cons_self, rfl, rfl⟩
    · rw [List.concat_eq_append, ← List.cons_append, ← List.append_assoc] at split
      exact ih (List.append_inj' split rfl).1

/-- What an operation was told when it took a step, it was told in an earlier step of its own. -/
theorem Reaches.heard_before {steps : List (Taken Answer State Op)} (reaches : Reaches effect body initial pool steps)
    {earlier later : List (Taken Answer State Op)} {taken : Taken Answer State Op}
    (split : steps = earlier ++ taken :: later) {exchange : Exchange Answer} (told : exchange ∈ taken.said) :
    ∃ step ∈ earlier, step.exchange = exchange ∧ step.operation = taken.operation := by
  obtain ⟨before, upTo, -, flight, member, operates, said⟩ := reaches.cut split
  obtain ⟨first, rest, isSaid⟩ := List.append_of_mem (said ▸ told)
  obtain ⟨step, there, same, -, mine⟩ := upTo.heard member isSaid
  exact ⟨step, there, same, mine.trans operates⟩

end Traces

/-! ## Parts of a larger program -/

/-- A program inside a larger one makes its own calls, and what is told keeps what holds there. -/
theorem Goes.within {Wider : Type} {WiderAnswer : Wider → Type} {WiderError : Type} {embed : Call → Wider}
    {back : ∀ request, WiderAnswer (embed request) → Answer request} {makes : Call → Prop}
    {rule : List (Exchange WiderAnswer) → Wider → Prop} {holds : List (Exchange WiderAnswer) → Prop}
    {fails : List (Exchange WiderAnswer) → WiderError → Prop} {said : List (Exchange WiderAnswer)}
    {program : CallProgram Call Answer Error α} (obeys : Obeys (fun _ => makes) [] program) (first : holds said)
    (allowed : ∀ said request, makes request → holds said → rule said (embed request))
    (kept : ∀ said request answer, holds said → holds (said ++ [⟨embed request, answer⟩])) :
    Goes rule (fun later _ => holds later) fails said
      (program.within embed back : CallProgram Wider WiderAnswer WiderError (Except Error α)) := by
  generalize [] = inner at obeys
  induction obeys generalizing said with
  | done value => exact .done first
  | throw error => exact .done first
  | call made _ ih => exact .call (allowed said _ made first) fun answer => ih _ (kept said _ answer first)

end CallProgram
