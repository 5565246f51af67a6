import RemoteSqlAgent.CommandRules

/-! When a settled command stays settled. An operation acts on the state it read,
and writes by id whatever the state is by then; and a result is recorded whatever
the state is. What an operation read is looked up in what it was told. -/
namespace RemoteSqlAgent
open Js CallProgram

def CommandCall.Sends (id : JsString) : CommandCall → Prop
  | .send _ command => command.id = id
  | _ => False

/-- The state in which an operation last found a command. -/
def lastRead (said : List (Exchange CommandAnswer)) (id : JsString) : Option CommandState :=
  (lastFound said id).map (·.state)

abbrev CommandStep := Taken CommandAnswer CommandStore CommandOperation

namespace CommandStep

/-- The step is not taken on a stale reading: a command that is settled by then
was so when the operation read it, or is set to what it is; and a result is only
recorded for a command that was read open, or settled so already. -/
structure Timely (step : CommandStep) : Prop where
  written : ∀ id row update, step.before.commands id = some row → row.state ∈ TERMINAL_COMMAND_STATES →
    updateOf id row step.exchange = some update →
    row.state = update.state ∨ lastRead step.said id = some row.state
  recorded : ∀ id row update read, step.before.commands id = some row → updateOf id row step.exchange = some update →
    lastRead step.said id = some read → read ∈ TERMINAL_COMMAND_STATES → read = update.state
  sent : ∀ id row, step.before.commands id = some row → row.state ∈ TERMINAL_COMMAND_STATES →
    step.request.Sends id → lastRead step.said id = some row.state

/-- The step changes the state of no settled command and sends none. -/
structure Settled (step : CommandStep) : Prop where
  state : ∀ id row, step.before.commands id = some row → row.state ∈ TERMINAL_COMMAND_STATES →
    ∃ later, step.after.commands id = some later ∧ later.state = row.state
  unsent : ∀ id row, step.before.commands id = some row → row.state ∈ TERMINAL_COMMAND_STATES →
    ¬ step.request.Sends id

end CommandStep

/-- Once settled, a command keeps its state to the end of the run, and is not
sent any more. -/
def TerminalStatesFinal (run : List CommandStep) : Prop :=
  ∀ earlier step later, run = earlier ++ step :: later →
    ∀ id row, step.before.commands id = some row → row.state ∈ TERMINAL_COMMAND_STATES →
      ∀ other ∈ step :: later,
        (∃ after, other.after.commands id = some after ∧ after.state = row.state) ∧ ¬ other.request.Sends id

theorem stale_not_terminal {state : CommandState} (stale : state ∈ STALE_COMMAND_STATES) :
    state ∉ TERMINAL_COMMAND_STATES := by
  revert stale
  cases state <;> decide

/-- Only a command that was found open is written by its id alone, or sent. -/
theorem Follows.found_open {config : ServiceConfig} {operation : CommandOperation}
    {said : List (Exchange CommandAnswer)} {id : JsString} {update : CommandUpdate}
    (follows : Follows config operation said (.updateCommand id update)) {state : CommandState}
    (last : lastRead said id = some state) : state ∉ TERMINAL_COMMAND_STATES := by
  obtain ⟨row, found, rfl⟩ := Option.map_eq_some_iff.mp last
  cases update with
  | approved approver at_ =>
    obtain ⟨other, here, state, -⟩ := follows
    cases found.symm.trans here
    rw [state]
    decide
  | rejected reason at_ =>
    obtain ⟨other, here, state⟩ := follows
    cases found.symm.trans here
    rw [state]
    decide
  | dispatched signature at_ =>
    obtain ⟨other, here, state⟩ := follows
    cases found.symm.trans here
    rw [state]
    decide
  | expired at_ => rcases follows row found with state | state <;> rw [state] <;> decide
  | result => exact follows.elim

theorem Follows.sent_open {config : ServiceConfig} {operation : CommandOperation}
    {said : List (Exchange CommandAnswer)} {workerId : JsString} {command : Command}
    (follows : Follows config operation said (.send workerId command)) {state : CommandState}
    (last : lastRead said command.id = some state) : state ∉ TERMINAL_COMMAND_STATES := by
  obtain ⟨row, found, rfl⟩ := Option.map_eq_some_iff.mp last
  obtain ⟨other, here, state⟩ := follows
  cases found.symm.trans here
  rw [state]
  decide

/-! ## Runs -/

namespace CommandStep

/-- A timely step of an operation leaves every settled command settled. -/
theorem Timely.settled {config : ServiceConfig} {step : CommandStep} (timely : step.Timely)
    (does : step.request.Does step.before step.answer step.after)
    (follows : Follows config step.operation step.said step.request) : step.Settled where
  state id row found terminal := by
    obtain ⟨later, there, ⟨update, updated, rfl⟩ | ⟨-, rfl | ⟨stale, -⟩⟩⟩ := does_row does found
    · refine ⟨_, there, ?_⟩
      rw [CommandUpdate.apply_state]
      rcases timely.written id row update found terminal updated with same | last
      · exact same.symm
      · -- It was read settled, so a result is being recorded.
        rcases step with ⟨operation, said, request, answer, before, after⟩
        cases request with
        | updateCommand commandId update =>
          cases answer with
          | error message => cases updated
          | ok _ =>
            have mine : id = commandId := by
              by_contra other
              simp [updateOf, other] at updated
            subst mine
            exact absurd terminal (follows.found_open last)
        | updateForWorker commandId workerId update =>
          exact (timely.recorded id row _ row.state found updated last terminal).symm
        | _ => cases updated
    · exact ⟨_, there, rfl⟩
    · exact absurd terminal (stale_not_terminal stale)
  unsent id row found terminal sends := by
    have last := timely.sent id row found terminal sends
    rcases step with ⟨operation, said, request, answer, before, after⟩
    cases request with
    | send workerId command =>
      obtain rfl : command.id = id := sends
      exact follows.sent_open last terminal
    | _ => exact sends

/-- The command is in a settled state that a call read. -/
def StillRead (exchange : Exchange CommandAnswer) (store : CommandStore) : Prop :=
  ∀ id row, foundRow id exchange = some row → row.state ∈ TERMINAL_COMMAND_STATES →
    ∃ later, store.commands id = some later ∧ later.state = row.state

variable {config : ServiceConfig} {run : List CommandStep}
  {pool : Pool CommandAnswer ServiceError Unit CommandStore CommandOperation}

/-- In a run that settles, a step is timely. -/
theorem Settled.timely {step : CommandStep} (settled : step.Settled)
    (does : step.request.Does step.before step.answer step.after)
    (read : ∀ exchange ∈ step.said, StillRead exchange step.before) : step.Timely where
  written id row update found terminal updated := by
    obtain ⟨later, there, ⟨other, same, rfl⟩ | ⟨none, -⟩⟩ := does_row does found
    · obtain ⟨still, here, kept⟩ := settled.state id row found terminal
      cases there.symm.trans here
      cases updated.symm.trans same
      rw [CommandUpdate.apply_state] at kept
      exact .inl kept.symm
    · cases updated.symm.trans none
  recorded id row update last found updated lastIs terminal := by
    obtain ⟨lastRow, rowIs, rfl⟩ := Option.map_eq_some_iff.mp lastIs
    obtain ⟨exchange, member, reads⟩ := lastFound_mem rowIs
    obtain ⟨standing, here, state⟩ := read exchange member id lastRow reads terminal
    cases found.symm.trans here
    obtain ⟨later, there, ⟨other, same, rfl⟩ | ⟨none, -⟩⟩ := does_row does found
    · obtain ⟨still, after, kept⟩ := settled.state id row found (state ▸ terminal)
      cases there.symm.trans after
      cases updated.symm.trans same
      rw [CommandUpdate.apply_state] at kept
      rw [← state, kept]
    · cases updated.symm.trans none
  sent id row found terminal sends := absurd sends (settled.unsent id row found terminal)

/-- If every step leaves settled commands settled, they are final. -/
theorem final_of_settled
    (reaches : Reaches CommandCall.Does (CommandOperation.body config) .empty pool run)
    (settled : ∀ step ∈ run, step.Settled) : TerminalStatesFinal run := by
  intro earlier step later split id row found terminal
  have inRun : ∀ other ∈ step :: later, other ∈ run := fun other member => by
    rw [split]
    exact List.mem_append_right _ member
  have reached : ∀ other ∈ step :: later, ∃ standing, other.before.commands id = some standing ∧
      standing.state = row.state := by
    intro other member
    rcases List.mem_cons.mp member with rfl | behind
    · exact ⟨row, found, rfl⟩
    · obtain ⟨between, rest, rfl⟩ := List.append_of_mem behind
      have apart : run = (earlier ++ step :: between) ++ other :: rest := by
        rw [split, List.append_assoc, List.cons_append]
      have mine : step ∈ earlier ++ step :: between := by simp
      refine reaches.since (fun store => ∃ standing, store.commands id = some standing ∧ standing.state = row.state)
        apart mine ((settled step (inRun step List.mem_cons_self)).state id row found terminal)
        fun taken there standing => ?_
      obtain ⟨before, stands, state⟩ := standing
      obtain ⟨after, stood, kept⟩ := (settled taken there).state id before stands (state ▸ terminal)
      exact ⟨after, stood, kept.trans state⟩
  intro other member
  obtain ⟨standing, stands, state⟩ := reached other member
  have keeps := settled other (inRun other member)
  obtain ⟨after, stood, kept⟩ := keeps.state id standing stands (state ▸ terminal)
  exact ⟨⟨after, stood, kept.trans state⟩, keeps.unsent id standing stands (state ▸ terminal)⟩

theorem settled_of_final (final : TerminalStatesFinal run) : ∀ step ∈ run, step.Settled := by
  intro step member
  obtain ⟨earlier, later, split⟩ := List.append_of_mem member
  exact {
    state := fun id row found terminal => (final earlier step later split id row found terminal step (by simp)).1
    unsent := fun id row found terminal => (final earlier step later split id row found terminal step (by simp)).2 }

end CommandStep

open CommandStep in
/-- **Terminal states are final exactly in the runs whose steps are all timely.** -/
theorem terminal_states_final_iff {config : ServiceConfig} {run : List CommandStep}
    {pool : Pool CommandAnswer ServiceError Unit CommandStore CommandOperation}
    (reaches : Reaches CommandCall.Does (CommandOperation.body config) .empty pool run) :
    TerminalStatesFinal run ↔ ∀ step ∈ run, step.Timely := by
  constructor
  · intro final
    have settled := settled_of_final final
    have heard := (reaches.told StillRead
      (fun taken member id row read _ => ⟨row, does_found (reaches.does taken member) read, rfl⟩)
      (fun taken member exchange known id row read terminal => by
        obtain ⟨standing, found, same⟩ := known id row read terminal
        obtain ⟨later, there, kept⟩ := (settled taken member).state id standing found (same ▸ terminal)
        exact ⟨later, there, kept.trans same⟩)).2
    exact fun step member => (settled step member).timely (reaches.does step member) (heard step member)
  · intro timely
    have follows := (reaches.allowed (Follows config) (obeys_body config)).2
    exact final_of_settled reaches fun step member =>
      (timely step member).settled (reaches.does step member) (follows step member)

/-! A command is sent, expires, and is then reported done. -/

def lateResult : ResultParams where
  commandId := js "c1"
  workerId := js "w1"
  success := true
  errorCode := []
  errorDetail := []
  sqlErrorNumber := 0
  hostName := js "HOST1"

def lateResultWork : List Work := [
  .begin (.create (sampleCreate .toggleJob)), .steps 0 12 1000,
  .begin .expireStale, .steps 1 3 1000000,
  .begin (.recordResult lateResult), .steps 2 3 1000001]

def lateResultRun : List CommandStep := (afterWork (sampleConfig false) lateResultWork).2

private theorem lateResult_reaches : Reaches CommandCall.Does (CommandOperation.body (sampleConfig false)) .empty
    (afterWork (sampleConfig false) lateResultWork).1 lateResultRun :=
  reaches_afterWork _ _

private theorem lateResult_not_final : ¬ TerminalStatesFinal lateResultRun := by
  intro final
  have reopened : (lateResultRun[17]?).map (fun step => ((step.before.commands (js "c1")).map (·.state),
      (step.after.commands (js "c1")).map (·.state))) = some (some .expired, some .succeeded) := by
    decide +kernel
  obtain ⟨step, there, states⟩ := Option.map_eq_some_iff.mp reopened
  obtain ⟨before, after⟩ := Prod.mk.inj states
  obtain ⟨row, found, expired⟩ := Option.map_eq_some_iff.mp before
  obtain ⟨later, stands, kept⟩ := (CommandStep.settled_of_final final step (List.mem_of_getElem? there)).state
    (js "c1") row found (by rw [expired]; decide)
  rw [stands, Option.map_some, Option.some.injEq, kept, expired] at after
  cases after

/-- A result after the expiry is not timely. -/
theorem late_result_untimely : ¬ ∀ step ∈ lateResultRun, CommandStep.Timely step := fun timely =>
  lateResult_not_final ((terminal_states_final_iff lateResult_reaches).mpr timely)

/-- **An expired command can still succeed.** -/
theorem terminal_states_not_final :
    ¬ ∀ (config : ServiceConfig) (run : List CommandStep)
        (pool : Pool CommandAnswer ServiceError Unit CommandStore CommandOperation),
      Reaches CommandCall.Does (CommandOperation.body config) .empty pool run → TerminalStatesFinal run :=
  fun claim => lateResult_not_final (claim (sampleConfig false) lateResultRun _ lateResult_reaches)

end RemoteSqlAgent
