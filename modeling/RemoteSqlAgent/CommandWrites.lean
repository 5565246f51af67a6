import RemoteSqlAgent.CanonicalEquivalence
import RemoteSqlAgent.CommandHandler

/-! What applying a command does to msdb. Whatever the command, a run makes at
most one call that can commit, everything before it only reads or stays in the
transaction, and the reply to that call decides what the run does next. -/
namespace RemoteSqlAgent
open Js CallProgram

/-- None of these calls can commit. -/
def Quiet (transcript : Transcript) : Prop := ∀ exchange ∈ transcript, exchange.1.writes = false

/-- A program that makes no call that can commit. -/
abbrev Reads {α : Type} (program : Sql α) : Prop := Within (fun call => call.writes = false) program

/-- The program makes at most one write. If that fails the program ends as
`failed` says. If it succeeds the program goes on as `after`, which may look at
what was said before. -/
def WritesOnce {α : Type} (program : Sql α) (failed : SqlError → Except Failure α)
    (after : Transcript → Sql α) : Prop :=
  ∀ (transcript : Transcript) (ended : Except Failure α), Runs program transcript ended →
    Quiet transcript ∨ ∃ before write rest, transcript = before ++ write :: rest ∧
      write.1.writes = true ∧ Quiet before ∧ Quiet rest ∧
      (∀ error, write.2.result = .error error → ended = failed error) ∧
      (∀ rows, write.2.result = .ok rows → Runs (after before) rest ended)

theorem Quiet.append {first second : Transcript} (left : Quiet first) (right : Quiet second) :
    Quiet (first ++ second) := by
  intro exchange member
  rcases List.mem_append.mp member with member | member
  · exact left exchange member
  · exact right exchange member

section Rules
variable {α β : Type} {program : Sql α} {fail : SqlError → Failure} {failed : SqlError → Except Failure α}
  {after : Transcript → Sql α}

theorem writesOnce_of_reads (reads : Reads program) : WritesOnce program failed after :=
  fun _ _ run => .inl (reads.exchanges run)

/-- The write itself. -/
theorem writesOnce_send (call : SqlCall) (writes : call.writes = true) (value : call.Rows)
    (only : ∀ rows : call.Rows, rows = value) :
    WritesOnce (send call) (fun error => .error (.driver error)) fun _ => pure value := by
  intro transcript ended run
  obtain ⟨reply, rfl, rfl⟩ := runs_send.mp run
  refine .inr ⟨[], ⟨call, reply⟩, [], rfl, writes, by simp [Quiet], by simp [Quiet], ?_, ?_⟩
  · intro error back
    simp only at back
    rw [back]
    rfl
  · intro rows back
    simp only at back
    rw [back, only rows]
    exact .done value

/-- Reading first changes nothing but what was said before the write. -/
theorem WritesOnce.after_reads {next : β → Sql α} {first : Sql β} (reads : Reads first)
    (each : ∀ said value, Runs first said (.ok value) →
      WritesOnce (next value) failed fun before => after (said ++ before)) :
    WritesOnce (first >>= next) failed after := by
  intro transcript ended run
  rcases runs_bind.mp run with ⟨error, threw, -⟩ | ⟨value, said, later, rfl, gave, onward⟩
  · exact .inl (reads.exchanges threw)
  · have quiet : Quiet said := reads.exchanges gave
    rcases each said value gave _ _ onward with still | ⟨before, write, rest, rfl, writes, still, quietRest,
      onError, onOk⟩
    · exact .inl (quiet.append still)
    · exact .inr ⟨said ++ before, write, rest, by simp, writes, quiet.append still, quietRest, onError, onOk⟩

/-- What reads after the write runs only if the write succeeded. -/
theorem WritesOnce.then_reads {next : α → Sql β}
    (first : WritesOnce program (fun error => .error (fail error)) after) (reads : ∀ value, Reads (next value)) :
    WritesOnce (program >>= next) (fun error => .error (fail error)) fun before => after before >>= next := by
  intro transcript ended run
  rcases runs_bind.mp run with ⟨thrown, threw, rfl⟩ | ⟨value, said, later, rfl, gave, onward⟩
  · rcases first _ _ threw with quiet | ⟨before, write, rest, rfl, writes, quiet, quietRest, onError, onOk⟩
    · exact .inl quiet
    · refine .inr ⟨before, write, rest, rfl, writes, quiet, quietRest, ?_, ?_⟩
      · intro error back
        rw [Except.error.inj (onError error back)]
      · intro rows back
        exact runs_bind.mpr (.inl ⟨thrown, onOk rows back, rfl⟩)
  · have quietLater : Quiet later := (reads value).exchanges onward
    rcases first _ _ gave with quiet | ⟨before, write, read, rfl, writes, quiet, quietRest, onError, onOk⟩
    · exact .inl (quiet.append quietLater)
    · refine .inr ⟨before, write, read ++ later, by simp, writes, quiet, quietRest.append quietLater, ?_, ?_⟩
      · intro error back
        cases onError error back
      · intro rows back
        exact runs_bind.mpr (.inr ⟨value, read, later, rfl, onOk rows back, onward⟩)

/-- A handler sees the error of the write, and only that of a write. -/
theorem WritesOnce.tryCatch {handler : Failure → Sql α} {value : Transcript → α}
    (first : WritesOnce program (fun error => .error (fail error)) fun before => pure (value before))
    (reads : ∀ failure, Reads (handler failure))
    (handled : ∀ error said ended, Runs (handler (fail error)) said ended → ended = failed error) :
    WritesOnce (program.tryCatch handler) failed fun before => pure (value before) := by
  intro transcript ended run
  rcases runs_tryCatch.mp run with ⟨result, gave, rfl⟩ | ⟨thrown, said, later, rfl, threw, onward⟩
  · rcases first _ _ gave with quiet | ⟨before, write, rest, rfl, writes, quiet, quietRest, onError, onOk⟩
    · exact .inl quiet
    · refine .inr ⟨before, write, rest, rfl, writes, quiet, quietRest, ?_, onOk⟩
      intro error back
      cases onError error back
  · have quietLater : Quiet later := (reads thrown).exchanges onward
    rcases first _ _ threw with quiet | ⟨before, write, read, rfl, writes, quiet, quietRest, onError, onOk⟩
    · exact .inl (quiet.append quietLater)
    · refine .inr ⟨before, write, read ++ later, by simp, writes, quiet, quietRest.append quietLater, ?_, ?_⟩
      · intro error back
        cases onError error back
        exact handled error later ended onward
      · intro rows back
        cases (runs_pure.mp (onOk rows back)).2

end Rules

/-! ## The writer -/

/-- How the errors of msdb come out of the writer. -/
abbrev writerFailed {α : Type} (error : SqlError) : Except Failure α := .error (wrapped (.driver error))

private theorem wrapSqlError_reads {α : Type} (failure : Failure) : Reads (wrapSqlError failure : Sql α) :=
  .throw _

private theorem wrapSqlError_handled {α : Type} (error : SqlError) (said : Transcript)
    (ended : Except Failure α) (run : Runs (wrapSqlError (.driver error) : Sql α) said ended) :
    ended = writerFailed error := (runs_throw.mp run).2

theorem executeOnPool_writesOnce (procedure : Procedure) (inputs : Inputs) :
    WritesOnce (executeOnPool procedure inputs) writerFailed fun _ => pure () :=
  WritesOnce.tryCatch (writesOnce_send (.onPool (.execute procedure inputs)) rfl () fun _ => rfl)
    wrapSqlError_reads wrapSqlError_handled

/-- A standalone definition is looked up, then written. -/
private theorem lookup_writesOnce (call : SqlCall) (reads : call.writes = false)
    (write : call.Rows → Procedure) (inputs : Inputs) :
    WritesOnce (CallProgram.tryCatch (do
        let existing ← send call
        send (.onPool (.execute (write existing) inputs))) wrapSqlError) writerFailed fun _ => pure () := by
  refine WritesOnce.tryCatch ?_ wrapSqlError_reads wrapSqlError_handled
  refine WritesOnce.after_reads (send_within reads) fun said existing _ => ?_
  exact writesOnce_send (.onPool (.execute (write existing) inputs)) rfl () fun _ => rfl

theorem upsertSchedule_writesOnce (schedule : ScheduleDefinition) :
    WritesOnce (upsertSchedule schedule) writerFailed fun _ => pure () :=
  lookup_writesOnce (.onPool (.schedulePresent schedule.name)) rfl _ _

theorem upsertOperator_writesOnce (operator : OperatorDefinition) :
    WritesOnce (upsertOperator operator) writerFailed fun _ => pure () :=
  lookup_writesOnce (.onPool (.operatorPresent operator.name)) rfl _ _

/-! ## Replacing a job -/

/-- The id a job got when it was created, if this exchange created it. -/
def createdJob : Exchange SqlAnswer → Option JsString
  | ⟨.inTransaction (.addJob _), reply⟩ =>
    match reply.result with
    | .ok jobId => (nullIfEmpty jobId).map toLowerCase
    | .error _ => none
  | _ => none

/-- The job that was written, given what was said up to the commit: the one that
was created, else the one that was named. -/
def writtenJob (jobUuid : JsString) (before : Transcript) : UpsertJobResult :=
  match before.findSome? createdJob with
  | some created => { jobUuid := created, created := true }
  | none => { jobUuid := jobUuid, created := false }

/-- Calls that neither commit nor create a job. -/
def Idle (call : SqlCall) : Prop := call.writes = false ∧ ∀ reply, createdJob ⟨call, reply⟩ = none

theorem executeIn_idle (procedure : Procedure) (inputs : Inputs) : Within Idle (executeIn procedure inputs) :=
  send_within ⟨rfl, fun _ => rfl⟩

theorem reads_of_idle {α : Type} {program : Sql α} (idle : Within Idle program) : Reads program :=
  idle.mono fun _ call => call.1

theorem fillJob_idle (result : UpsertJobResult) (definition : JobDefinition) :
    Within Idle (fillJob result definition) := by
  have schedules : Within Idle (reconcileJobSchedules result.jobUuid definition.schedules) := by
    refine Within.bind (send_within ⟨rfl, fun _ => rfl⟩) fun current => ?_
    refine Within.bind (Within.forM fun schedule _ => ?_) fun _ => Within.forM fun name _ => ?_
    · exact .ite (executeIn_idle _ _) (executeIn_idle _ _)
    · exact .ite (.done _) (executeIn_idle _ _)
  have server : Within Idle (if result.created then
      executeIn .sp_add_jobserver [(js "job_id", .string result.jobUuid),
        (js "server_name", .string (js "(LOCAL)"))] else pure ()) :=
    .ite (executeIn_idle _ _) (.done _)
  have later := schedules.bind fun _ => server
  refine Within.bind (Within.forM fun step _ => executeIn_idle _ _) fun _ => ?_
  exact .ite ((executeIn_idle _ _).bind fun _ => later) later

theorem findSome?_idle {α : Type} {program : Sql α} (idle : Within Idle program) {transcript : Transcript}
    {ended : Except Failure α} (run : Runs program transcript ended) :
    transcript.findSome? createdJob = none :=
  List.findSome?_eq_none_iff.mpr fun exchange member => (idle.exchanges run exchange member).2 exchange.2

theorem addJob_reads (definition : JobDefinition) : Reads (addJob definition) := by
  refine Within.bind (send_within rfl) fun jobId => ?_
  split
  · exact .throw _
  · exact .done _

theorem findJob_idle (jobUuid : JsString) : Within Idle (findJob jobUuid) := by
  have present : Within Idle (jobExists jobUuid) := by
    refine Within.bind (send_within ?_) fun _ => .done _
    exact ⟨rfl, fun _ => rfl⟩
  exact .ite present (.done false)

theorem prepareJob_reads (jobUuid : JsString) (definition : JobDefinition) :
    Reads (prepareJob jobUuid definition) := by
  refine (reads_of_idle (findJob_idle jobUuid)).bind fun found => .ite ?_ ?_
  · exact (reads_of_idle (executeIn_idle _ _)).bind fun _ => (reads_of_idle (executeIn_idle _ _)).bind fun _ => .done _
  · exact (addJob_reads definition).bind fun _ => .done _

/-- A job is created exactly if `sp_add_job` answered with its id. -/
theorem addJob_created {definition : JobDefinition} {said : Transcript} {jobId : JsString}
    (run : Runs (addJob definition) said (.ok jobId)) : said.findSome? createdJob = some jobId := by
  rcases runs_bind.mp run with ⟨_, -, same⟩ | ⟨rows, first, second, rfl, sent, onward⟩
  · cases same
  obtain ⟨⟨result, committed⟩, rfl, back⟩ := runs_send.mp sent
  cases result with
  | error error => cases back
  | ok output =>
    cases back
    split at onward
    · cases (runs_throw.mp onward).2
    · rename_i created present
      obtain ⟨rfl, same⟩ := runs_pure.mp onward
      have found : createdJob ⟨.inTransaction (.addJob (addJobInputs definition)),
          { result := .ok rows, committed := committed }⟩ = some jobId := by
        rw [Except.ok.inj same]
        exact congrArg (Option.map toLowerCase) present
      rw [List.append_nil, List.findSome?_cons, found]

/-- What is prepared is what the rest of the transaction writes. -/
theorem prepareJob_written {jobUuid : JsString} {definition : JobDefinition} {said : Transcript}
    {result : UpsertJobResult} (run : Runs (prepareJob jobUuid definition) said (.ok result)) :
    result = writtenJob jobUuid said := by
  rcases runs_bind.mp run with ⟨_, -, same⟩ | ⟨found, first, second, rfl, looked, onward⟩
  · cases same
  have unchanged : writtenJob jobUuid (first ++ second) = writtenJob jobUuid second := by
    simp only [writtenJob, List.findSome?_append, findSome?_idle (findJob_idle jobUuid) looked, Option.none_or]
  rw [unchanged]
  cases found with
  | true =>
    have updated : Within Idle (do
        updateJobProperties jobUuid definition
        executeIn .sp_delete_jobstep [(js "job_id", .string jobUuid), (js "step_id", .number 0)]
        return ({ jobUuid := jobUuid, created := false } : UpsertJobResult)) :=
      (executeIn_idle _ _).bind fun _ => (executeIn_idle _ _).bind fun _ => .done _
    rw [writtenJob, findSome?_idle updated onward]
    rcases runs_bind.mp onward with ⟨_, -, same⟩ | ⟨_, _, _, rfl, -, onward⟩
    · cases same
    rcases runs_bind.mp onward with ⟨_, -, same⟩ | ⟨_, _, _, rfl, -, last⟩
    · cases same
    exact Except.ok.inj (runs_pure.mp last).2
  | false =>
    rcases runs_bind.mp onward with ⟨_, -, same⟩ | ⟨jobId, said, _, rfl, added, last⟩
    · cases same
    obtain ⟨rfl, same⟩ := runs_pure.mp last
    rw [writtenJob, List.append_nil, addJob_created added]
    exact Except.ok.inj same

private theorem commit_writesOnce {α : Type} {result : α} {after : Transcript → Sql α}
    (here : after [] = pure result) :
    WritesOnce (send .commit >>= fun _ => pure result) (fun error => .error (.driver error)) after := by
  intro transcript ended run
  rcases runs_bind.mp run with ⟨thrown, threw, rfl⟩ | ⟨rows, said, later, rfl, gave, onward⟩
  · obtain ⟨reply, rfl, back⟩ := runs_send.mp threw
    refine .inr ⟨[], ⟨.commit, reply⟩, [], rfl, rfl, by simp [Quiet], by simp [Quiet], ?_, ?_⟩
    · intro error answered
      simp only at answered
      rw [answered] at back
      exact congrArg Except.error (Except.error.inj back)
    · intro rows answered
      simp only at answered
      rw [answered] at back
      cases back
  · obtain ⟨reply, rfl, back⟩ := runs_send.mp gave
    obtain ⟨rfl, rfl⟩ := runs_pure.mp onward
    refine .inr ⟨[], ⟨.commit, reply⟩, [], rfl, rfl, by simp [Quiet], by simp [Quiet], ?_, ?_⟩
    · intro error answered
      simp only at answered
      rw [answered] at back
      cases back
    · intro rows answered
      rw [here]
      exact .done result

private theorem replacement_writesOnce (jobUuid : JsString) (definition : JobDefinition) :
    WritesOnce (do
        let result ← prepareJob jobUuid definition
        fillJob result definition
        send .commit
        return result)
      (fun error => .error (.driver error)) fun before => pure (writtenJob jobUuid before) := by
  refine WritesOnce.after_reads (prepareJob_reads jobUuid definition) fun prepared result ran => ?_
  have idle := fillJob_idle result definition
  refine WritesOnce.after_reads (reads_of_idle idle) fun filled _ fills => commit_writesOnce ?_
  rw [prepareJob_written ran]
  simp only [writtenJob, List.findSome?_append, findSome?_idle idle fills, List.findSome?_nil,
    Option.or_none]

/-- The whole replacement commits at one place, and then names the job it wrote. -/
theorem upsertJob_writesOnce (jobUuid : JsString) (definition : JobDefinition) :
    WritesOnce (upsertJob jobUuid definition) writerFailed fun before => pure (writtenJob jobUuid before) := by
  refine WritesOnce.after_reads (send_within rfl) fun opening _ opened => ?_
  have begun : ∀ before, writtenJob jobUuid (opening ++ before) = writtenJob jobUuid before := by
    intro before
    obtain ⟨reply, rfl, -⟩ := runs_send.mp opened
    rfl
  simp only [begun]
  refine (replacement_writesOnce jobUuid definition).tryCatch ?_ ?_
  · intro failure
    refine Within.bind (settle_within ?_) fun _ => .throw _
    rfl
  · intro error said ended run
    obtain ⟨_, _, rfl, last⟩ := runs_settle_bind.mp run
    exact (runs_throw.mp last).2

/-! ## Every kind of command -/

section
variable (runtime : Runtime)

/-- What a command still does once its write has succeeded. -/
def readBack (payload : Option CommandPayload) (before : Transcript) : Sql ApplyOutcome :=
  match payload with
  | some (.toggleJob toggleJob) => do
    return ok (← readJobBlob runtime toggleJob.jobUuid)
  | some (.upsertJob upsertJob) => do
    return ok (← readJobBlob runtime (writtenJob upsertJob.jobUuid before).jobUuid)
  | _ => pure (ok none)

/-- How applying a command ends when its write fails. -/
def writeFailed (payload : Option CommandPayload) (error : SqlError) : Except Failure ApplyOutcome :=
  match payload with
  | some (.setJobWriteAllowed _) =>
    match error.number with
    | some number => .ok (sqlFailure error.message number)
    | none => .error (.driver error)
  | _ => writerFailed error

variable {runtime}

theorem readJobBlob_idle (jobUuid : JsString) : Within Idle (readJobBlob runtime jobUuid) := by
  refine Within.bind (readJobs_within fun statement reads => ⟨reads, fun _ => rfl⟩) fun result => ?_
  split
  · exact .done _
  · split
    · exact .throw _
    · exact .done _

theorem checkConflict_idle (jobUuid baseDefinitionHash : JsString) (allowOverwrite : Bool) :
    Within Idle (checkConflict runtime jobUuid baseDefinitionHash allowOverwrite) := by
  refine .ite (.done _) ((readJobBlob_idle jobUuid).bind fun blob => ?_)
  cases blob with
  | none => exact .done _
  | some blob => exact .ite (.done _) (.ite (.done _) (.done _))

theorem upsertConflict_idle (upsertJob : UpsertJob) : Within Idle (upsertConflict runtime upsertJob) :=
  .ite (checkConflict_idle _ _ _) (.done _)

private theorem readBack_reads (jobUuid : JsString) :
    Reads (do return ok (← readJobBlob runtime jobUuid)) :=
  (reads_of_idle (readJobBlob_idle jobUuid)).bind fun _ => .done _

/-- A conflict ends the command before it writes. -/
private theorem unlessConflict_writesOnce {first : Sql (Option ApplyOutcome)} {program : Sql ApplyOutcome}
    {failed : SqlError → Except Failure ApplyOutcome} {after : Transcript → Sql ApplyOutcome}
    (idle : Within Idle first)
    (each : ∀ said, said.findSome? createdJob = none → WritesOnce program failed fun before => after (said ++ before)) :
    WritesOnce (first >>= fun conflict => unlessConflict conflict program) failed after := by
  refine WritesOnce.after_reads (reads_of_idle idle) fun said conflict ran => ?_
  cases conflict with
  | some outcome => exact writesOnce_of_reads (.done _)
  | none => exact each said (findSome?_idle idle ran)

private theorem applyDefinition_writesOnce {Definition : Type} (noun : String)
    (schema : JsValue → Option Definition) {write : Definition → Sql Unit} (canonicalJson : JsString)
    (each : ∀ definition, WritesOnce (write definition) writerFailed fun _ => pure ()) :
    WritesOnce (applyDefinition runtime noun schema write canonicalJson) writerFailed
      fun _ => pure (ok none) := by
  unfold applyDefinition
  split
  · exact writesOnce_of_reads (.done _)
  · split
    · exact writesOnce_of_reads (.done _)
    · exact (each _).then_reads fun _ => .done _

/-- **Applying a command writes to msdb at one place.** -/
theorem apply_writesOnce (command : Command) : WritesOnce (apply runtime command)
    (writeFailed command.payload) (readBack runtime command.payload) := by
  have simple : ∀ procedure inputs, WritesOnce (executeOnPool procedure inputs >>= fun _ => pure (ok none))
      writerFailed fun _ => pure (ok none) :=
    fun procedure inputs => (executeOnPool_writesOnce procedure inputs).then_reads fun _ => .done _
  unfold apply
  cases command.payload with
  | none => exact writesOnce_of_reads (.done _)
  | some payload =>
    cases payload with
    | toggleJob toggleJob =>
      refine unlessConflict_writesOnce (checkConflict_idle _ _ _) fun said _ => ?_
      exact (executeOnPool_writesOnce _ _).then_reads fun _ => readBack_reads _
    | runJob runJob => exact simple _ _
    | stopJob stopJob => exact simple _ _
    | upsertJob upsertJob =>
      change WritesOnce (applyUpsertJob runtime upsertJob) _ _
      unfold applyUpsertJob
      split
      · exact writesOnce_of_reads (.done _)
      · refine unlessConflict_writesOnce (upsertConflict_idle upsertJob) fun said none_ => ?_
        have same : ∀ before, writtenJob upsertJob.jobUuid (said ++ before) =
            writtenJob upsertJob.jobUuid before := by
          intro before
          simp only [writtenJob, List.findSome?_append, none_, Option.none_or]
        simp only [readBack, same]
        exact (upsertJob_writesOnce _ _).then_reads fun _ => readBack_reads _
    | deleteJob deleteJob => exact unlessConflict_writesOnce (checkConflict_idle _ _ _) fun _ _ => simple _ _
    | upsertSchedule upsertSchedule =>
      exact applyDefinition_writesOnce _ _ _ fun definition => upsertSchedule_writesOnce definition
    | deleteSchedule deleteSchedule => exact simple _ _
    | upsertOperator upsertOperator =>
      exact applyDefinition_writesOnce _ _ _ fun definition => upsertOperator_writesOnce definition
    | deleteOperator deleteOperator => exact writesOnce_of_reads (.done _)
    | setJobWriteAllowed setJobWriteAllowed =>
      have written : WritesOnce (RemoteSqlAgent.setJobWriteAllowed setJobWriteAllowed.jobName
          setJobWriteAllowed.allowed >>= fun _ => pure (ok none)) writerFailed fun _ => pure (ok none) :=
        simple _ _
      refine written.tryCatch (fun failure => ?_) fun error said ended run => ?_
      · split
        · exact .done _
        · exact .throw _
      · unfold writeFailed
        cases numbered : error.number <;> simp only [wrapped, numbered] at run ⊢
        · exact (runs_throw.mp run).2
        · exact (runs_pure.mp run).2

end

end RemoteSqlAgent
