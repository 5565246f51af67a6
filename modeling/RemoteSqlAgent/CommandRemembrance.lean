import RemoteSqlAgent.CommandWrites

/-! When a committed write leaves an idempotency record. A record is made where
applying returns or throws an error of msdb; reading the job back comes after
the commit, and what it throws is neither. -/
namespace RemoteSqlAgent
open Js CallProgram

/-- The read of a job succeeds: every query answers, and a job of that id among
the rows is one the schema admits. -/
def Readable (jobUuid : JsString) (transcript : Transcript) : Prop :=
  ∃ jobs steps schedules servers, Answered transcript jobs steps schedules servers ∧
    ∀ job, (jobsOfRows jobs steps schedules servers).jobs.find?
        (fun job => job.jobUuid = toLowerCase jobUuid) = some job →
      (jobDefinitionSchema job.definition.toValue).isSome = true

/-- What follows the write of a command succeeds. Only two kinds read back. -/
def ReadsBack (payload : Option CommandPayload) (before rest : Transcript) : Prop :=
  match payload with
  | some (.toggleJob toggleJob) => Readable toggleJob.jobUuid rest
  | some (.upsertJob upsertJob) => Readable (writtenJob upsertJob.jobUuid before).jobUuid rest
  | _ => True

/-- The write came back with an error that has a number, or succeeded and so did
what follows it. -/
def Survives (payload : Option CommandPayload) (before : Transcript) (write : Exchange SqlAnswer)
    (rest : Transcript) : Prop :=
  match write.2.result with
  | .error error => error.number.isSome = true
  | .ok _ => ReadsBack payload before rest

/-- The command has a record, so that no later delivery of its id says anything
to msdb. -/
structure Remembered (runtime : Runtime) (command : Command) (outbox : Outbox) : Prop where
  recorded : (outbox.appliedCommandOutcome command.id).isSome = true
  silent : ∀ (later : Command) context clock said ended, later.id = command.id →
    Runs (handleCommand runtime later context clock outbox) said ended → said = []

section
variable {runtime : Runtime} {command : Command} {context : CommandContext} {clock : Clock} {outbox : Outbox}

variable (runtime) in
theorem canonicaliseJobWithHash_isOk {definition : JobDefinition} :
    (∃ result, canonicaliseJobWithHash runtime definition.toValue = .ok result) ↔
      (jobDefinitionSchema definition.toValue).isSome = true := by
  unfold canonicaliseJobWithHash
  cases parsed : jobDefinitionSchema definition.toValue with
  | none => simp
  | some job =>
    obtain ⟨text, spelled⟩ := canonicalJsonStringify_ok (normaliseJobDefinition job).toValue_sorts
    simp [spelled]

variable (runtime) in
theorem readJobBlob_returns {jobUuid : JsString} {transcript : Transcript} :
    (∃ blob, Runs (readJobBlob runtime jobUuid) transcript (.ok blob)) ↔ Readable jobUuid transcript := by
  constructor
  · rintro ⟨blob, run⟩
    rcases runs_bind.mp run with ⟨_, -, same⟩ | ⟨result, said, later, rfl, ran, onward⟩
    · cases same
    obtain ⟨jobs, steps, schedules, servers, answered, rfl⟩ := runs_readJobs_ok.mp ran
    have ends : later = [] := by
      split at onward
      · exact (runs_pure.mp onward).1
      · split at onward
        · exact (runs_throw.mp onward).1
        · exact (runs_pure.mp onward).1
    subst ends
    rw [List.append_nil]
    refine ⟨jobs, steps, schedules, servers, answered, fun job found => ?_⟩
    rw [← canonicaliseJobWithHash_isOk runtime]
    simp only [found] at onward
    split at onward
    · cases (runs_throw.mp onward).2
    · exact ⟨_, by assumption⟩
  · rintro ⟨jobs, steps, schedules, servers, answered, admits⟩
    have ran : Runs readJobs transcript (.ok (jobsOfRows jobs steps schedules servers)) :=
      runs_readJobs_ok.mpr ⟨jobs, steps, schedules, servers, answered, rfl⟩
    cases found : (jobsOfRows jobs steps schedules servers).jobs.find?
        (fun job => job.jobUuid = toLowerCase jobUuid) with
    | none =>
      refine ⟨none, runs_bind.mpr (.inr ⟨_, transcript, [], by simp, ran, ?_⟩)⟩
      simp only [found]
      exact .done none
    | some job =>
      obtain ⟨canonical, reads⟩ := (canonicaliseJobWithHash_isOk runtime).mpr (admits job found)
      refine ⟨some ⟨job.jobUuid, canonical.canonicalJson, canonical.hash, toTimestamp job.dateModified⟩,
        runs_bind.mpr (.inr ⟨_, transcript, [], by simp, ran, ?_⟩)⟩
      simp only [found, reads]
      exact .done _

/-- An error that is thrown by reading a job back is not one of applying. -/
theorem readJobBlob_throws {jobUuid : JsString} {transcript : Transcript} {message : JsString} {number : Int} :
    ¬ Runs (readJobBlob runtime jobUuid) transcript (.error (.sqlApply message number)) := by
  intro run
  rcases runs_bind.mp run with ⟨_, ran, same⟩ | ⟨result, said, later, rfl, ran, onward⟩
  · cases same
    obtain ⟨_, same⟩ := readJobs_throws ran
    cases same
  · split at onward
    · cases (runs_pure.mp onward).2
    · split at onward
      · cases (runs_throw.mp onward).2
      · cases (runs_pure.mp onward).2

/-- Whether applying ended so that it is recorded. -/
def Concluded : Except Failure ApplyOutcome → Prop
  | .ok _ => True
  | .error (.sqlApply _ _) => True
  | .error _ => False

private theorem blob_concluded {jobUuid : JsString} {rest : Transcript} {ended : Except Failure ApplyOutcome}
    (run : Runs (do return ok (← readJobBlob runtime jobUuid)) rest ended) :
    Concluded ended ↔ Readable jobUuid rest := by
  rw [← readJobBlob_returns runtime]
  rcases runs_bind.mp run with ⟨failure, threw, rfl⟩ | ⟨blob, said, later, rfl, gave, onward⟩
  · refine iff_of_false ?_ ?_
    · cases failure with
      | sqlApply message number => exact absurd threw readJobBlob_throws
      | driver | other => exact id
    · rintro ⟨blob, gave⟩
      cases gave.ended_unique threw
  · obtain ⟨rfl, rfl⟩ := runs_pure.mp onward
    exact iff_of_true trivial ⟨blob, by simpa using gave⟩

/-- The reply to the write and what follows it decide whether there will be a
record. -/
private theorem write_concluded {before rest : Transcript} {write : Exchange SqlAnswer}
    {ended : Except Failure ApplyOutcome}
    (onError : ∀ error, write.2.result = .error error → ended = writeFailed command.payload error)
    (onOk : ∀ rows, write.2.result = .ok rows → Runs (readBack runtime command.payload before) rest ended) :
    Concluded ended ↔ Survives command.payload before write rest := by
  unfold Survives
  cases back : write.2.result with
  | error error =>
    rw [onError error back]
    unfold writeFailed writerFailed wrapped
    cases numbered : error.number <;> split <;> simp [Concluded, numbered]
  | ok rows =>
    change Concluded ended ↔ ReadsBack command.payload before rest
    have run := onOk rows back
    cases carried : command.payload with
    | none =>
      obtain ⟨-, rfl⟩ := runs_pure.mp (carried ▸ run)
      exact Iff.rfl
    | some payload =>
      rw [carried] at run
      cases payload with
      | toggleJob toggleJob => exact blob_concluded run
      | upsertJob upsertJob => exact blob_concluded run
      | _ =>
        obtain ⟨-, rfl⟩ := runs_pure.mp run
        exact Iff.rfl

theorem conclude_recorded {applied : Except Failure ApplyOutcome}
    (fresh : outbox.appliedCommandOutcome command.id = none) :
    ((conclude command clock outbox applied).2.appliedCommandOutcome command.id).isSome = true ↔
      Concluded applied := by
  rcases applied with (⟨message, number⟩ | error | message) | outcome
  · simp only [conclude, Outbox.appliedCommandOutcome_record
      (Outbox.appliedCommandOutcome_afterHeartbeats fresh), Option.isSome_some, Concluded]
  · simp [conclude, Outbox.appliedCommandOutcome_afterHeartbeats fresh, Concluded]
  · simp [conclude, Outbox.appliedCommandOutcome_afterHeartbeats fresh, Concluded]
  · simp only [conclude, Outbox.appliedCommandOutcome_record
      (Outbox.appliedCommandOutcome_afterHeartbeats fresh), Option.isSome_some, Concluded]

theorem remembered_iff :
    Remembered runtime command outbox ↔ (outbox.appliedCommandOutcome command.id).isSome = true := by
  refine ⟨(·.recorded), fun recorded => ⟨recorded, ?_⟩⟩
  intro later context clock said ended named run
  rcases runs_handleCommand.mp run with ⟨_, -, silent, -⟩ | ⟨passed, -⟩
  · exact silent
  · rw [← named, (gates_eq_none.mp passed).2] at recorded
    cases recorded

/-- A transcript with one write can be cut at a write in one way. -/
private theorem cut_unique {before before' rest rest' : Transcript} {write write' : Exchange SqlAnswer}
    (same : before ++ write :: rest = before' ++ write' :: rest') (quiet : Quiet before)
    (quietRest : Quiet rest) (writes : write'.1.writes = true) :
    before = before' ∧ write = write' ∧ rest = rest' := by
  induction before generalizing before' with
  | nil =>
    cases before' with
    | nil =>
      obtain ⟨head, tail⟩ := List.cons.inj same
      exact ⟨rfl, head, tail⟩
    | cons other others =>
      have later := quietRest write' (by rw [(List.cons.inj same).2]; simp)
      rw [writes] at later
      cases later
  | cons exchange earlier ih =>
    cases before' with
    | nil =>
      have first := quiet exchange List.mem_cons_self
      rw [(List.cons.inj same).1, writes] at first
      cases first
    | cons other others =>
      obtain ⟨head, tail⟩ := List.cons.inj same
      obtain ⟨rfl, here, there⟩ := ih tail fun later member => quiet later (List.mem_cons_of_mem _ member)
      exact ⟨by rw [head], here, there⟩

/-- **When a committed write is remembered.** A command whose write was committed
has a record when its handling ends, by return or by throw, exactly if an error
of the write has a number and a write that succeeded is read back without error. -/
theorem handleCommand_remembers_iff {transcript : Transcript} {result : Except Failure CommandResult}
    {outbox' : Outbox}
    (run : Runs (handleCommand runtime command context clock outbox) transcript (.ok (result, outbox'))) :
    ((∃ write ∈ transcript, Committed write) → Remembered runtime command outbox') ↔
      ∀ before write rest, transcript = before ++ write :: rest → Committed write →
        Survives command.payload before write rest := by
  rcases runs_handleCommand.mp run with ⟨_, -, rfl, -⟩ | ⟨passed, applied, ran, same⟩
  · simp
  rcases apply_writesOnce command transcript applied ran with
    quiet | ⟨before, write, rest, rfl, writes, quiet, quietRest, onError, onOk⟩
  · refine iff_of_true ?_ ?_
    · rintro ⟨write, member, committed⟩
      cases (quiet write member).symm.trans committed.1
    · rintro before write rest rfl committed
      cases (quiet write (by simp)).symm.trans committed.1
  · have fresh := (gates_eq_none.mp passed).2
    obtain ⟨-, rfl⟩ := Prod.mk.inj (Except.ok.inj same)
    rw [remembered_iff, conclude_recorded fresh, write_concluded onError onOk]
    constructor
    · intro remembers before' write' rest' cut committed
      obtain ⟨rfl, rfl, rfl⟩ := cut_unique cut quiet quietRest committed.1
      exact remembers ⟨write, by simp, committed⟩
    · rintro survives ⟨write', member, committed⟩
      obtain ⟨before', rest', cut⟩ := List.append_of_mem member
      obtain ⟨rfl, rfl, rfl⟩ := cut_unique cut quiet quietRest committed.1
      exact survives before write rest rfl committed

end

section Toggle

/-- A deadlock while the job is read back leaves no record of a change that was
committed. -/
theorem handleCommand_forgets_toggle :
    ¬ ∀ (runtime : Runtime) (command : Command) (context : CommandContext) (clock : Clock)
      (outbox : Outbox) (transcript : Transcript) (result : Except Failure CommandResult) (outbox' : Outbox),
      Runs (handleCommand runtime command context clock outbox) transcript (.ok (result, outbox')) →
      (∃ write ∈ transcript, Committed write) → Remembered runtime command outbox' := by
  intro claim
  let deadlock : SqlError := { message := js "Transaction was deadlocked", number := some 1205 }
  have run : Runs (handleCommand toggleRuntime toggleCommand toggleContext toggleClock .empty)
      (toggleTranscript (.error deadlock))
      (.ok (.error (.driver deadlock), Outbox.empty.afterHeartbeats toggleClock.heartbeats)) :=
    runs_handleCommand.mpr (.inr ⟨toggle_passes, .error (.driver deadlock),
      .call _ (.call _ (.call _ (.call _ (.call _ (.throw _))))), rfl⟩)
  have remembered := claim _ _ _ _ _ _ _ _ run ⟨_, List.mem_cons_self, rfl, rfl⟩
  have forgotten := remembered.recorded
  rw [Outbox.appliedCommandOutcome_afterHeartbeats (gates_eq_none.mp toggle_passes).2] at forgotten
  cases forgotten

theorem handleCommand_remembers_iff_toggle :
    ((∃ write ∈ toggleTranscript (.ok []), Committed write) →
      Remembered toggleRuntime toggleCommand
        toggleOutbox) ↔
    ∀ before write rest, toggleTranscript (.ok []) = before ++ write :: rest → Committed write →
      Survives toggleCommand.payload before write rest :=
  handleCommand_remembers_iff toggle_handled

end Toggle

end RemoteSqlAgent
