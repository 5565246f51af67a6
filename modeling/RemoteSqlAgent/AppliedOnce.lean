import RemoteSqlAgent.CommandHandler
import Mathlib.Logic.Relation

/-! Commands are applied at most once, and answered faithfully afterwards. A
record outlives every signature of its command: it is kept for a day, and no
command is fresh for longer than a quarter of an hour. -/
namespace RemoteSqlAgent
open Js CallProgram

/-! ## Outcomes -/

/-- A code is given exactly with a failure, so the record of one tells which it
was. -/
def ApplyOutcome.Coded (outcome : ApplyOutcome) : Prop := outcome.success = true ↔ outcome.errorCode = []

theorem ok_coded (resultingJob : Option JobDefinitionBlob) : (ok resultingJob).Coded :=
  iff_of_true rfl rfl

theorem sqlFailure_coded (message : JsString) (number : Int) : (sqlFailure message number).Coded :=
  iff_of_false Bool.false_ne_true (show js "SqlError" ≠ [] by decide)

section
variable {runtime : Runtime}

private theorem checkConflict_coded (jobUuid baseDefinitionHash : JsString) (allowOverwrite : Bool) :
    Gives (fun conflict => ∀ outcome ∈ conflict, outcome.Coded)
      (checkConflict runtime jobUuid baseDefinitionHash allowOverwrite) := by
  have none_ : ∀ outcome ∈ (none : Option ApplyOutcome), outcome.Coded := by simp
  refine .ite (.done none_) (.bind fun blob => ?_)
  cases blob with
  | none =>
    exact .done fun outcome member => by
      cases member
      exact iff_of_false Bool.false_ne_true (show js "Conflict" ≠ [] by decide)
  | some blob =>
    refine .ite (.done none_) (.ite (.done ?_) (.done none_))
    exact fun outcome member => by
      cases member
      exact iff_of_false Bool.false_ne_true (show js "Conflict" ≠ [] by decide)

private theorem unlessConflict_coded {first : Sql (Option ApplyOutcome)} {after : Sql ApplyOutcome}
    (conflicts : Gives (fun conflict => ∀ outcome ∈ conflict, outcome.Coded) first)
    (each : Gives ApplyOutcome.Coded after) :
    Gives ApplyOutcome.Coded (first >>= fun conflict => unlessConflict conflict after) := by
  intro transcript outcome run
  rcases runs_bind.mp run with ⟨_, -, same⟩ | ⟨conflict, said, later, -, gave, onward⟩
  · cases same
  cases conflict with
  | none => exact each later outcome onward
  | some refused =>
    obtain ⟨-, same⟩ := runs_pure.mp onward
    exact Except.ok.inj same ▸ conflicts said _ gave refused rfl

/-- Whatever applying a command returns is coded. -/
theorem apply_coded (command : Command) : Gives ApplyOutcome.Coded (apply runtime command) := by
  have refused : ∀ {code detail : JsString}, code ≠ [] → (refuse code detail).Coded :=
    fun coded => iff_of_false Bool.false_ne_true coded
  have definition : ∀ {Definition : Type} noun (schema : JsValue → Option Definition) write canonicalJson,
      Gives ApplyOutcome.Coded (applyDefinition runtime noun schema write canonicalJson) := by
    intro Definition noun schema write canonicalJson
    unfold applyDefinition
    split
    · exact .done (refused (by decide))
    · split
      · exact .done (refused (by decide))
      · exact .bind fun _ => .done (ok_coded none)
  unfold apply
  cases command.payload with
  | none => exact .done (refused (by decide))
  | some payload =>
    cases payload with
    | toggleJob toggleJob =>
      exact unlessConflict_coded (checkConflict_coded _ _ _) (.bind fun _ => .bind fun blob => .done (ok_coded blob))
    | upsertJob upsertJob =>
      change Gives _ (applyUpsertJob runtime upsertJob)
      unfold applyUpsertJob
      split
      · exact .done (refused (by decide))
      · refine unlessConflict_coded ?_ (.bind fun _ => .bind fun blob => .done (ok_coded blob))
        exact .ite (checkConflict_coded _ _ _) (.done (by simp))
    | deleteJob deleteJob =>
      exact unlessConflict_coded (checkConflict_coded _ _ _) (.bind fun _ => .done (ok_coded none))
    | upsertSchedule upsertSchedule => exact definition _ _ _ _
    | upsertOperator upsertOperator => exact definition _ _ _ _
    | deleteOperator deleteOperator => exact .done (refused (by decide))
    | setJobWriteAllowed setJobWriteAllowed =>
      refine .tryCatch (.bind fun _ => .done (ok_coded none)) fun failure => ?_
      split
      · exact .done (sqlFailure_coded _ _)
      · exact .throw
    | runJob | stopJob | deleteSchedule => exact .bind fun _ => .done (ok_coded none)

end

/-! ## Runs of the worker -/

/-- One delivery of a command: what it found, what msdb said, how it ended. -/
structure Delivery where
  command : Command
  context : CommandContext
  clock : Clock
  transcript : Transcript
  result : Except Failure CommandResult

/-- An application of a command, and what was reported of it. -/
structure Application where
  command : Command
  result : Except Failure CommandResult

/-- The worker between two deliveries. The applications so far are its history,
which it does not keep. -/
structure Worker where
  outbox : Outbox
  /-- The last reading of the clock. -/
  now : Int
  applications : List Application

def Clock.readings (clock : Clock) : List Int :=
  clock.checkedAt :: clock.heartbeats ++ [clock.recordedAt, clock.repliedAt]

/-- What is assumed of a delivery: the clock does not go back, every delivery of
an id carries the same time of issue, and applying throws nothing but the errors
of msdb. -/
structure Orderly (runtime : Runtime) (issued : JsString → Option Timestamp) (now : Int)
    (delivery : Delivery) : Prop where
  clock : (now :: delivery.clock.readings).Pairwise (· ≤ ·)
  issuedAt : delivery.command.issuedAt = issued delivery.command.id
  sqlOnly : ∀ failure, Runs (apply runtime delivery.command) delivery.transcript (.error failure) →
    ∃ message number, failure = .sqlApply message number

/-- The application a delivery makes, if it gets to one. -/
def Delivery.applications (runtime : Runtime) (outbox : Outbox) (delivery : Delivery) : List Application :=
  match gates runtime delivery.command delivery.context outbox delivery.clock.checkedAt with
  | some _ => []
  | none => [{ command := delivery.command, result := delivery.result }]

inductive Step (runtime : Runtime) (issued : JsString → Option Timestamp) : Worker → Worker → Prop where
  | deliver {worker : Worker} {outbox' : Outbox} (delivery : Delivery)
      (orderly : Orderly runtime issued worker.now delivery)
      (run : Runs (handleCommand runtime delivery.command delivery.context delivery.clock worker.outbox)
        delivery.transcript (.ok (delivery.result, outbox'))) :
      Step runtime issued worker {
        outbox := outbox'
        now := delivery.clock.repliedAt
        applications := worker.applications ++ delivery.applications runtime worker.outbox }
  | heartbeat {worker : Worker} (now : Int) (clock : worker.now ≤ now) :
      Step runtime issued worker { worker with
        outbox := worker.outbox.pruneAppliedCommands now APPLIED_COMMAND_RETENTION_MS
        now := now }
  /-- The process starts again between two deliveries. -/
  | restart {worker : Worker} : Step runtime issued worker { worker with outbox := worker.outbox.reopen }

/-- A worker with a new database. -/
def Worker.start (now : Int) : Worker where
  outbox := .empty
  now := now
  applications := []

/-- What a worker can become. -/
def Reachable (runtime : Runtime) (issued : JsString → Option Timestamp) (worker : Worker) : Prop :=
  ∃ now, Relation.ReflTransGen (Step runtime issued) (.start now) worker

/-! ## What a worker keeps -/

/-- No signature of the command is fresh any more, nor will be. -/
def Expired (issued : JsString → Option Timestamp) (now : Int) (commandId : JsString) : Prop :=
  ∀ later, now ≤ later → ∀ issuedAt, fromTimestamp (issued commandId) = some issuedAt →
    isCommandFresh issuedAt later = false

/-- The record of an application, as a later delivery is answered from it. -/
def RecordOf (application : Application) (row : AppliedCommand) : Prop :=
  row.command_id = application.command.id ∧
    application.result.map (fun result => (result.success, result.errorCode)) =
      .ok (row.success, (replay row.success row.result).errorCode)

/-- The invariant between two readings of the clock. -/
structure Keeps (issued : JsString → Option Timestamp) (outbox : Outbox) (now : Int)
    (applications : List Application) : Prop where
  once : (applications.map (·.command.id)).Nodup
  /-- No record is older than the signature it guards, but for the tolerated skew. -/
  dated : ∀ row ∈ outbox.appliedCommands, ∃ issuedAt, fromTimestamp (issued row.command_id) = some (some issuedAt) ∧
    issuedAt ≤ row.applied_at + MAX_COMMAND_CLOCK_SKEW_MS
  /-- A record is there for as long as it is needed. -/
  kept : ∀ application ∈ applications, Expired issued now application.command.id ∨
    ∃ row ∈ outbox.appliedCommands, RecordOf application row

section
variable {issued : JsString → Option Timestamp} {outbox : Outbox} {now : Int} {applications : List Application}

theorem Expired.later {commandId : JsString} {later : Int} (expired : Expired issued now commandId)
    (ordered : now ≤ later) : Expired issued later commandId :=
  fun time after => expired time (ordered.trans after)

theorem Keeps.later {later : Int} (keeps : Keeps issued outbox now applications) (ordered : now ≤ later) :
    Keeps issued outbox later applications where
  once := keeps.once
  dated := keeps.dated
  kept application member := (keeps.kept application member).imp_left (·.later ordered)

/-- What pruning removes guards nothing any more. -/
theorem Keeps.pruned_expired (keeps : Keeps issued outbox now applications) {at_ : Int} {row : AppliedCommand}
    (member : row ∈ outbox.appliedCommands)
    (gone : row ∉ (outbox.pruneAppliedCommands at_ APPLIED_COMMAND_RETENTION_MS).appliedCommands) :
    Expired issued at_ row.command_id := by
  have old : row.applied_at < at_ - APPLIED_COMMAND_RETENTION_MS := by
    by_contra young
    exact gone (Outbox.mem_pruneAppliedCommands member (by omega))
  obtain ⟨issuedAt, timed, bound⟩ := keeps.dated row member
  intro later after time same
  rw [timed] at same
  cases same
  rw [Bool.eq_false_iff, ne_eq, isCommandFresh_some]
  simp only [MAX_COMMAND_AGE_MS, MAX_COMMAND_CLOCK_SKEW_MS, APPLIED_COMMAND_RETENTION_MS] at old bound ⊢
  omega

theorem Keeps.heartbeat (keeps : Keeps issued outbox now applications) {at_ : Int} (ordered : now ≤ at_) :
    Keeps issued (outbox.pruneAppliedCommands at_ APPLIED_COMMAND_RETENTION_MS) at_ applications where
  once := keeps.once
  dated row member := keeps.dated row (Outbox.pruneAppliedCommands_subset member)
  kept application member := by
    rcases keeps.kept application member with expired | ⟨row, there, record⟩
    · exact .inl (expired.later ordered)
    · by_cases stays : row ∈ (outbox.pruneAppliedCommands at_ APPLIED_COMMAND_RETENTION_MS).appliedCommands
      · exact .inr ⟨row, stays, record⟩
      · exact .inl (record.1 ▸ keeps.pruned_expired there stays)

theorem Keeps.heartbeats {times : List Int} (keeps : Keeps issued outbox now applications)
    (ordered : (now :: times).Pairwise (· ≤ ·)) {last : Int} (after : ∀ time ∈ now :: times, time ≤ last) :
    Keeps issued (outbox.afterHeartbeats times) last applications := by
  induction times generalizing outbox now with
  | nil => exact keeps.later (after now List.mem_cons_self)
  | cons first rest ih =>
    obtain ⟨before, sorted⟩ := List.pairwise_cons.mp ordered
    refine ih (keeps.heartbeat (before first List.mem_cons_self)) sorted fun time member => ?_
    exact after time (List.mem_cons_of_mem _ member)

/-- A record that is found is the one of the application. -/
theorem Keeps.found (keeps : Keeps issued outbox now applications) {application : Application}
    (member : application ∈ applications) (current : ¬ Expired issued now application.command.id) :
    ∃ row, RecordOf application row ∧
      outbox.appliedCommandOutcome application.command.id = some (row.success, row.result) := by
  rcases keeps.kept application member with expired | ⟨row, there, record⟩
  · exact absurd expired current
  · exact ⟨row, record, record.1 ▸ Outbox.appliedCommandOutcome_of_mem there⟩

/-- A new application is recorded next to the others. -/
theorem Keeps.record (keeps : Keeps issued outbox now applications) {command : Command}
    (result : CommandResult) {recorded : Option JsString} {issuedAt recordedAt : Int}
    (fresh : outbox.appliedCommandOutcome command.id = none)
    (new : command.id ∉ applications.map (·.command.id))
    (timed : fromTimestamp (issued command.id) = some (some issuedAt))
    (bound : issuedAt ≤ recordedAt + MAX_COMMAND_CLOCK_SKEW_MS)
    (coded : (replay result.success recorded).errorCode = result.errorCode) :
    Keeps issued (outbox.recordAppliedCommand command.id result.success recorded recordedAt) now
      (applications ++ [{ command := command, result := .ok result }]) where
  once := by
    rw [List.map_append]
    exact List.Nodup.append keeps.once (List.nodup_singleton _) (List.disjoint_singleton.mpr new)
  dated row member := by
    rcases (Outbox.mem_recordAppliedCommand fresh).mp member with there | rfl
    · exact keeps.dated row there
    · exact ⟨issuedAt, timed, bound⟩
  kept application member := by
    rcases List.mem_append.mp member with there | here
    · refine (keeps.kept application there).imp_right fun ⟨row, stored, record⟩ => ?_
      exact ⟨row, (Outbox.mem_recordAppliedCommand fresh).mpr (.inl stored), record⟩
    · rw [List.mem_singleton] at here
      subst here
      refine .inr ⟨_, (Outbox.mem_recordAppliedCommand fresh).mpr (.inr rfl), rfl, ?_⟩
      simp only [Except.map, coded]

end

section
variable {runtime : Runtime} {issued : JsString → Option Timestamp} {worker : Worker} {delivery : Delivery}

/-- A coded outcome is answered again from its record. -/
theorem replay_coded {outcome : ApplyOutcome} (coded : outcome.Coded) :
    (replay outcome.success (nullIfEmpty (some outcome.errorCode))).errorCode = outcome.errorCode := by
  unfold replay nullIfEmpty
  by_cases empty : outcome.errorCode = []
  · rw [if_pos (coded.mpr empty), empty]
  · rw [if_neg (mt coded.mp empty)]
    simp only [Option.filter_some, empty, ne_eq, not_false_eq_true, decide_true, ↓reduceIte, Option.getD_some]

/-- The order in which a delivery reads the clock. -/
theorem Orderly.order (orderly : Orderly runtime issued worker.now delivery) :
    worker.now ≤ delivery.clock.checkedAt ∧ delivery.clock.checkedAt ≤ delivery.clock.recordedAt ∧
      (worker.now :: delivery.clock.heartbeats).Pairwise (· ≤ ·) ∧
      ∀ time ∈ worker.now :: delivery.clock.heartbeats, time ≤ delivery.clock.repliedAt := by
  have clock := orderly.clock
  simp only [Clock.readings, List.cons_append, List.pairwise_cons, List.mem_cons, List.mem_append,
    List.not_mem_nil, or_false, List.pairwise_append] at clock
  obtain ⟨start, checked, beats, -, before⟩ := clock
  refine ⟨start _ (.inl rfl), checked _ (.inr (.inl rfl)), ?_, ?_⟩
  · exact List.pairwise_cons.mpr ⟨fun time member => start time (.inr (.inl member)), beats⟩
  · intro time member
    rcases List.mem_cons.mp member with rfl | member
    · exact start _ (.inr (.inr (.inr rfl)))
    · exact before time member _ (.inr rfl)

/-- An admitted command is not expired. -/
theorem Admitted.current (orderly : Orderly runtime issued worker.now delivery)
    (admitted : Admitted runtime delivery.command delivery.context delivery.clock.checkedAt) :
    ¬ Expired issued worker.now delivery.command.id := by
  intro expired
  obtain ⟨issuedAt, timed, fresh⟩ := admitted.fresh
  rw [orderly.issuedAt] at timed
  cases fresh.symm.trans (expired _ orderly.order.1 issuedAt timed)

/-- What one delivery does to the records. -/
theorem Keeps.deliver (keeps : Keeps issued worker.outbox worker.now worker.applications)
    (orderly : Orderly runtime issued worker.now delivery) {outbox' : Outbox}
    (run : Runs (handleCommand runtime delivery.command delivery.context delivery.clock worker.outbox)
      delivery.transcript (.ok (delivery.result, outbox'))) :
    Keeps issued outbox' delivery.clock.repliedAt
      (worker.applications ++ delivery.applications runtime worker.outbox) := by
  obtain ⟨checked, recorded, beats, replied⟩ := orderly.order
  rcases runs_handleCommand.mp run with ⟨early, closed, -, same⟩ | ⟨passed, applied, ran, same⟩
  · obtain ⟨-, rfl⟩ := Prod.mk.inj (Except.ok.inj same)
    simp only [Delivery.applications, closed, List.append_nil]
    exact keeps.later (replied _ List.mem_cons_self)
  obtain ⟨admitted, unrecorded⟩ := gates_eq_none.mp passed
  have new : delivery.command.id ∉ worker.applications.map (·.command.id) := by
    intro member
    obtain ⟨application, there, named⟩ := List.mem_map.mp member
    obtain ⟨row, -, found⟩ := keeps.found there (named ▸ admitted.current orderly)
    rw [named, unrecorded] at found
    cases found
  obtain ⟨issuedAt, timed, fresh⟩ := admitted.fresh
  rw [orderly.issuedAt] at timed
  cases issuedAt with
  | none => cases fresh
  | some issuedAt =>
    have bound : issuedAt ≤ delivery.clock.recordedAt + MAX_COMMAND_CLOCK_SKEW_MS := by
      have skew := (isCommandFresh_some.mp fresh).2
      omega
    obtain ⟨result, rfl⟩ := Prod.mk.inj (Except.ok.inj same)
    have beaten := keeps.heartbeats beats replied
    have still : (worker.outbox.afterHeartbeats delivery.clock.heartbeats).appliedCommandOutcome
        delivery.command.id = none := Outbox.appliedCommandOutcome_afterHeartbeats unrecorded
    simp only [Delivery.applications, passed, result]
    cases applied with
    | ok outcome =>
      exact beaten.record (outcome.toResult delivery.command delivery.clock) still new timed bound
        (replay_coded (apply_coded delivery.command _ outcome ran))
    | error failure =>
      obtain ⟨message, number, rfl⟩ := orderly.sqlOnly failure ran
      exact beaten.record ((sqlFailure message number).toResult delivery.command delivery.clock) still new
        timed bound rfl

/-- Every worker that can be reached keeps what it must. -/
theorem Reachable.keeps (reached : Reachable runtime issued worker) :
    Keeps issued worker.outbox worker.now worker.applications := by
  obtain ⟨now, run⟩ := reached
  induction run with
  | refl =>
    exact { once := List.nodup_nil, dated := by simp [Worker.start, Outbox.empty],
            kept := by simp [Worker.start] }
  | tail _ step ih =>
    cases step with
    | deliver delivery orderly run => exact ih.deliver orderly run
    | heartbeat now clock => exact ih.heartbeat clock
    | restart => exact { once := ih.once, dated := ih.dated, kept := ih.kept }

/-- **Commands are applied at most once and answered faithfully.** Whatever was
delivered, pruned and restarted before: no id was applied twice, a delivery of
an applied id that passes the other gates says nothing to msdb and reports what
was reported first, and no record is pruned that a fresh signature could need. -/
theorem commands_applied_once (reached : Reachable runtime issued worker) :
    (worker.applications.map (·.command.id)).Nodup ∧
      (∀ (delivery : Delivery) (outbox' : Outbox), Orderly runtime issued worker.now delivery →
        Runs (handleCommand runtime delivery.command delivery.context delivery.clock worker.outbox)
          delivery.transcript (.ok (delivery.result, outbox')) →
        Admitted runtime delivery.command delivery.context delivery.clock.checkedAt →
        ∀ application ∈ worker.applications, application.command.id = delivery.command.id →
          delivery.transcript = [] ∧ ∃ first answer, application.result = .ok first ∧
            delivery.result = .ok answer ∧ answer.success = first.success ∧
            answer.errorCode = first.errorCode) ∧
      ∀ now, worker.now ≤ now → ∀ row ∈ worker.outbox.appliedCommands,
        row ∉ (worker.outbox.pruneAppliedCommands now APPLIED_COMMAND_RETENTION_MS).appliedCommands →
        Expired issued now row.command_id := by
  have keeps := reached.keeps
  refine ⟨keeps.once, ?_, fun now _ row member gone => keeps.pruned_expired member gone⟩
  intro delivery outbox' orderly run admitted application member named
  obtain ⟨row, ⟨-, record⟩, found⟩ := keeps.found member (named ▸ admitted.current orderly)
  rw [named] at found
  have replayed := gates_replay admitted found
  rcases runs_handleCommand.mp run with ⟨early, closed, silent, same⟩ | ⟨passed, -⟩
  · rw [replayed] at closed
    cases closed
    obtain ⟨answer, -⟩ := Prod.mk.inj (Except.ok.inj same)
    cases first : application.result with
    | error failure =>
      rw [first] at record
      cases record
    | ok reported =>
      rw [first] at record
      obtain ⟨success, code⟩ := Prod.mk.inj (Except.ok.inj record)
      exact ⟨silent, reported, _, rfl, answer, success.symm, code.symm⟩
  · rw [replayed] at passed
    cases passed

end

/-- The worker that has switched the sample job on. -/
def toggleWorker : Worker where
  outbox := toggleOutbox
  now := toggleClock.repliedAt
  applications := [{ command := toggleCommand
                     result := .ok ((ok none).toResult toggleCommand toggleClock) }]

theorem toggleWorker_reachable :
    Reachable toggleRuntime (fun _ => toggleCommand.issuedAt) toggleWorker := by
  let delivery : Delivery := {
    command := toggleCommand
    context := toggleContext
    clock := toggleClock
    transcript := toggleTranscript (.ok [])
    result := .ok ((ok none).toResult toggleCommand toggleClock) }
  have succeeds : Runs (apply toggleRuntime toggleCommand) (toggleTranscript (.ok [])) (.ok (ok none)) :=
    .call _ (.call _ (.call _ (.call _ (.call _ (.done _)))))
  have orderly : Orderly toggleRuntime (fun _ => toggleCommand.issuedAt) 1700000000000 delivery := by
    refine ⟨by decide, rfl, fun failure fails => ?_⟩
    cases succeeds.ended_unique fails
  have step : Step toggleRuntime (fun _ => toggleCommand.issuedAt) (.start 1700000000000) {
      outbox := toggleOutbox
      now := toggleClock.repliedAt
      applications := [] ++ delivery.applications toggleRuntime .empty } :=
    .deliver delivery orderly toggle_handled
  simp only [Delivery.applications, delivery, toggle_passes, List.nil_append] at step
  exact ⟨1700000000000, .single step⟩

theorem commands_applied_once_toggle :
    toggleWorker.applications.length = 1 ∧ (toggleWorker.applications.map (·.command.id)).Nodup ∧
      ∀ now, toggleWorker.now ≤ now → ∀ row ∈ toggleWorker.outbox.appliedCommands,
        row ∉ (toggleWorker.outbox.pruneAppliedCommands now APPLIED_COMMAND_RETENTION_MS).appliedCommands →
        Expired (fun _ => toggleCommand.issuedAt) now row.command_id :=
  ⟨rfl, (commands_applied_once toggleWorker_reachable).1,
    (commands_applied_once toggleWorker_reachable).2.2⟩

end RemoteSqlAgent
