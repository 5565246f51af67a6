import RemoteSqlAgent.HubRules
import RemoteSqlAgent.LateReports

/-! What is left of a session that was superseded. Its queue runs on, beside the
queue of the session that replaced it, and nothing orders the two: a statement of
the older session can come after one of the newer. Sessions are numbered as they
were opened, so what a worker reported is ordered by session first. -/
namespace RemoteSqlAgent
open Js CallProgram LateReports

/-- What a statement says of a job. -/
def JobCall.word (key : JobKey) : JobCall → Word (Option JsString)
  | .recordJobVersion input => if input.key = key then .present (some input.definitionHash) else .silent
  | .markJobDeleted instanceId jobUuid => if ⟨instanceId, jobUuid⟩ = key then .gone else .silent
  | .markJobsMissingFromSnapshot instanceId seen =>
    if key.instanceId = instanceId ∧ key.jobUuid ∉ seen then .gone else .silent

/-- What the control plane shows of a job: its definition, and whether it is
deleted. -/
def JobTables.mirrored (tables : JobTables) (key : JobKey) : Option (Mirrored (Option JsString)) :=
  (tables.jobs key).map fun row => ⟨row.currentDefinitionHash, row.deletedAt.isSome⟩

/-- What a session reported of its worker. -/
structure SessionReport where
  session : Nat
  statement : JobCall

/-- The statement on jobs that an exchange did. -/
def statementDone : Exchange HubAnswer → Option JobCall
  | ⟨.job (.recordJobVersion input), .ok _⟩ => some (.recordJobVersion input)
  | ⟨.job (.markJobDeleted instanceId jobUuid), .ok _⟩ => some (.markJobDeleted instanceId jobUuid)
  | ⟨.job (.markJobsMissingFromSnapshot instanceId seen), .ok _⟩ =>
    some (.markJobsMissingFromSnapshot instanceId seen)
  | _ => none

/-- What a step reports, if it is one of a session. -/
def reportOf (step : HubStep) : Option SessionReport :=
  match step.operation with
  | .session number _ _ _ => (statementDone ⟨step.request, step.answer⟩).map fun statement => ⟨number, statement⟩
  | .command _ => none

def reports (run : List HubStep) : List SessionReport := run.filterMap reportOf

/-- The worker's reports as it made them: session after session. -/
def asReported (run : List HubStep) : List SessionReport := inOrderMade (·.session) (reports run)

/-- A newer session has reported on the job before. -/
def Superseded (earlier : List HubStep) (report : SessionReport) (key : JobKey) : Prop :=
  ∃ newer ∈ reports earlier, report.session < newer.session ∧ newer.statement.word key ≠ .silent

/-- After the step each job is mirrored as its worker last reported it, and what is
superseded added no version of a job and deleted none. -/
structure AsLastReported (earlier : List HubStep) (step : HubStep) : Prop where
  mirrored : ∀ key, step.after.tables.mirrored key =
    LateReports.replay ((asReported (earlier ++ [step])).map (·.statement.word key))
  unversioned : ∀ report key, reportOf step = some report → Superseded earlier report key →
    step.after.tables.jobVersions key = step.before.tables.jobVersions key
  undeleted : ∀ report key row, reportOf step = some report → Superseded earlier report key →
    step.before.tables.jobs key = some row → row.deletedAt = none →
    ∃ later, step.after.tables.jobs key = some later ∧ later.deletedAt = none

/-- What the step reports late says of a job only what is mirrored already. -/
def NothingNew (earlier : List HubStep) (step : HubStep) : Prop :=
  ∀ report key, reportOf step = some report → Superseded earlier report key →
    (report.statement.word key).Agrees (step.before.tables.mirrored key)

/-! ## What a statement does to a job -/

section
variable {runtime : Runtime} {tables after : JobTables} {key : JobKey}

/-- A recording shows its definition, and nothing else. -/
theorem mirrored_observe (input : RecordVersionInput) (definition : JobDefinition) (detectedAt : Int) :
    (tables.observe input definition detectedAt).1.mirrored key =
      ((JobCall.recordJobVersion input).word key).apply (tables.mirrored key) := by
  rcases JobTables.observe_cases tables input definition detectedAt with
    ⟨existing, found, same, repeated⟩ | ⟨-, version, rfl, observed⟩
  · rw [repeated]
    by_cases mine : input.key = key
    · subst mine
      unfold JobTables.reappear
      split
      · simp [JobTables.mirrored, JobTables.setJob, JobCall.word, Word.apply, same]
      · rename_i kept
        simp only [JobTables.mirrored, JobCall.word, Word.apply, found, Option.map_some, same, ↓reduceIte]
        rw [Bool.eq_false_iff.mpr kept]
    · unfold JobTables.reappear
      split <;> simp [JobTables.mirrored, JobTables.setJob, JobCall.word, mine, Ne.symm mine]
  · rw [observed]
    by_cases mine : input.key = key
    · subst mine
      simp [JobTables.mirrored, JobTables.addVersion, JobTables.jobColumns, JobTables.nextVersion, JobCall.word,
        Word.apply]
    · simp [JobTables.mirrored, JobTables.addVersion, JobCall.word, mine, Ne.symm mine]

theorem mirrored_markJobDeleted (instanceId jobUuid : JsString) (now : Int) :
    (tables.markJobDeleted instanceId jobUuid now).mirrored key =
      ((JobCall.markJobDeleted instanceId jobUuid).word key).apply (tables.mirrored key) := by
  by_cases mine : (⟨instanceId, jobUuid⟩ : JobKey) = key
  · subst mine
    simp [JobTables.mirrored, JobTables.markJobDeleted, JobTables.updateJob, JobCall.word, Word.apply,
      JobTables.softDelete, Function.comp_def]
  · simp [JobTables.mirrored, JobTables.markJobDeleted, JobTables.updateJob, JobCall.word, mine, Ne.symm mine]

theorem mirrored_markJobsMissing (instanceId : JsString) (seen : List JsString) (now : Int) :
    (tables.markJobsMissingFromSnapshot instanceId seen now).mirrored key =
      ((JobCall.markJobsMissingFromSnapshot instanceId seen).word key).apply (tables.mirrored key) := by
  simp only [JobTables.mirrored, JobTables.markJobsMissingFromSnapshot, JobCall.word, Option.map_map]
  by_cases missing : key.instanceId = instanceId ∧ key.jobUuid ∉ seen
  · rw [if_pos missing, Word.apply, Option.map_map]
    refine Option.map_congr fun row _ => ?_
    by_cases deleted : row.deletedAt = none
    · simp [missing, deleted, JobTables.softDelete]
    · simp [deleted, Option.isSome_iff_ne_none]
  · rw [if_neg missing, Word.apply_silent]
    refine Option.map_congr fun row _ => ?_
    rw [Function.comp_apply, if_neg fun both => missing ⟨both.1, both.2.2⟩]

/-- A statement that is done shows what it says. -/
theorem mirrored_does (key : JobKey) {statement : JobCall} {answer : JobAnswer statement}
    (does : statement.Does runtime tables answer after) {done : JobCall}
    (isDone : statementDone ⟨.job statement, answer⟩ = some done) :
    done = statement ∧ after.mirrored key = (statement.word key).apply (tables.mirrored key) := by
  cases statement with
  | recordJobVersion input =>
    cases answer with
    | error text => cases isDone
    | ok result =>
      obtain ⟨now, recorded⟩ := does
      cases parsed : parseJobDefinition runtime input.canonicalJson with
      | error text =>
        rw [JobTables.recordJobVersion_of_error parsed] at recorded
        cases recorded
      | ok definition =>
        rw [JobTables.recordJobVersion_of_parsed parsed, Except.ok.injEq] at recorded
        rw [← mirrored_observe input definition (input.detectedAt.getD now), recorded]
        exact ⟨(Option.some.inj isDone).symm, rfl⟩
  | markJobDeleted instanceId jobUuid =>
    cases answer with
    | error text => cases isDone
    | ok _ =>
      obtain ⟨now, rfl⟩ := does
      exact ⟨(Option.some.inj isDone).symm, mirrored_markJobDeleted instanceId jobUuid now⟩
  | markJobsMissingFromSnapshot instanceId seen =>
    cases answer with
    | error text => cases isDone
    | ok _ =>
      obtain ⟨now, rfl⟩ := does
      exact ⟨(Option.some.inj isDone).symm, mirrored_markJobsMissing instanceId seen now⟩

/-- A statement that says nothing new adds no version. -/
theorem unversioned_of_agrees {statement : JobCall} {answer : JobAnswer statement}
    (does : statement.Does runtime tables answer after) (agrees : (statement.word key).Agrees (tables.mirrored key)) :
    after.jobVersions key = tables.jobVersions key := by
  cases statement with
  | recordJobVersion input =>
    cases answer with
    | error text => rw [show after = tables from does]
    | ok result =>
      obtain ⟨now, recorded⟩ := does
      cases parsed : parseJobDefinition runtime input.canonicalJson with
      | error text =>
        rw [JobTables.recordJobVersion_of_error parsed] at recorded
        cases recorded
      | ok definition =>
        rw [JobTables.recordJobVersion_of_parsed parsed, Except.ok.injEq] at recorded
        rcases JobTables.observe_cases tables input definition (input.detectedAt.getD now) with
          ⟨existing, found, same, repeated⟩ | ⟨moved, version, -, observed⟩
        · rw [repeated] at recorded
          cases recorded
          rw [JobTables.reappear_jobVersions]
        · rw [observed] at recorded
          cases recorded
          by_cases mine : input.key = key
          · subst mine
            simp only [JobCall.word, ↓reduceIte, Word.Agrees] at agrees
            obtain ⟨row, found, shown⟩ := Option.map_eq_some_iff.mp agrees
            exact absurd (congrArg Mirrored.definition shown) (moved row found)
          · simp [JobTables.addVersion, Ne.symm mine]
  | markJobDeleted instanceId jobUuid =>
    cases answer with
    | error text => rw [show after = tables from does]
    | ok _ =>
      obtain ⟨now, rfl⟩ := does
      rfl
  | markJobsMissingFromSnapshot instanceId seen =>
    cases answer with
    | error text => rw [show after = tables from does]
    | ok _ =>
      obtain ⟨now, rfl⟩ := does
      rfl

/-- Nor does it delete a job. -/
theorem undeleted_of_agrees {statement : JobCall} {answer : JobAnswer statement}
    (does : statement.Does runtime tables answer after)
    (isDone : statementDone ⟨.job statement, answer⟩ = some statement)
    (agrees : (statement.word key).Agrees (tables.mirrored key)) {row : JobsRow} (found : tables.jobs key = some row)
    (present : row.deletedAt = none) : ∃ later, after.jobs key = some later ∧ later.deletedAt = none := by
  have same : after.mirrored key = tables.mirrored key :=
    (mirrored_does _ does isDone).2.trans (Word.apply_eq_self.mpr agrees)
  have shown : tables.mirrored key = some ⟨row.currentDefinitionHash, false⟩ := by
    rw [JobTables.mirrored, found, Option.map_some, present]
    rfl
  obtain ⟨later, stands, shows⟩ := Option.map_eq_some_iff.mp (same.trans shown)
  refine ⟨later, stands, ?_⟩
  simpa using congrArg Mirrored.gone shows

end

/-! ## Runs -/

variable {config : HubConfig} {run : List HubStep} {pool : Pool HubAnswer Unit Unit HubStore HubOperation}

/-- A step reports what its statement did, or leaves the jobs. -/
theorem report_or_same {step : HubStep}
    (does : step.request.Does config.runtime step.before step.answer step.after)
    (follows : HubFollows config step.operation step.said step.request) :
    (reportOf step = none ∧ step.after.tables = step.before.tables) ∨
      ∃ number statement answer, reportOf step = some ⟨number, statement⟩ ∧
        statement.Does config.runtime step.before.tables answer step.after.tables ∧
        statementDone ⟨.job statement, answer⟩ = some statement := by
  rcases step with ⟨operation, said, request, answer, before, after⟩
  dsimp only at does follows ⊢
  have idle (unsaid : statementDone ⟨request, answer⟩ = none) (same : after.tables = before.tables) :
      (reportOf ⟨operation, said, request, answer, before, after⟩ = none ∧ after.tables = before.tables) ∨
        ∃ number statement answer', reportOf ⟨operation, said, request, answer, before, after⟩ =
          some ⟨number, statement⟩ ∧ statement.Does config.runtime before.tables answer' after.tables ∧
          statementDone ⟨.job statement, answer'⟩ = some statement := by
    refine .inl ⟨?_, same⟩
    cases operation with
    | session => simp [reportOf, unsaid]
    | command => rfl
  cases request with
  | job statement =>
    obtain ⟨tables, done, rfl⟩ := does
    have session : ∃ number worker remoteAddress count, operation = .session number worker remoteAddress count := by
      cases statement with
      | recordJobVersion input =>
        obtain ⟨number, worker, remoteAddress, count, -, opened, -⟩ := follows
        exact ⟨number, worker, remoteAddress, count, opened⟩
      | _ => exact follows
    obtain ⟨number, worker, remoteAddress, count, rfl⟩ := session
    cases isDone : statementDone ⟨.job statement, answer⟩ with
    | none =>
      refine idle isDone ?_
      cases statement <;> cases answer <;> first | exact done | cases isDone
    | some told =>
      obtain ⟨rfl, -⟩ := mirrored_does ⟨[], []⟩ done isDone
      exact .inr ⟨number, _, answer, by simp [reportOf, isDone], done, isDone⟩
  | command statement =>
    obtain ⟨commands, -, rfl⟩ := does
    exact idle rfl rfl
  | upsertInstance other instanceName =>
    cases answer with
    | error text => exact idle rfl (congrArg HubStore.tables (show after = before from does))
    | ok added => rcases does with ⟨-, rfl⟩ | ⟨-, -, rfl⟩ <;> exact idle rfl rfl
  | _ => exact idle rfl (congrArg HubStore.tables (show after = before from does))

/-- If the jobs were mirrored as last reported, they are after a step exactly if it
reports nothing new late. -/
theorem asLastReported_iff {earlier : List HubStep} {step : HubStep}
    (does : step.request.Does config.runtime step.before step.answer step.after)
    (follows : HubFollows config step.operation step.said step.request)
    (mirrored : ∀ key, step.before.tables.mirrored key =
      LateReports.replay ((asReported earlier).map (·.statement.word key))) :
    AsLastReported earlier step ↔ NothingNew earlier step := by
  rcases report_or_same does follows with ⟨unsaid, same⟩ | ⟨number, statement, answer, said, done, isDone⟩
  · have unreported : asReported (earlier ++ [step]) = asReported earlier := by
      simp [asReported, reports, List.filterMap_append, unsaid]
    refine iff_of_true ⟨fun key => ?_, fun report key here => ?_, fun report key row here => ?_⟩
      fun report key here => ?_
    · rw [unreported, same, mirrored]
    all_goals
      rw [unsaid] at here
      cases here
  · have reported : reports (earlier ++ [step]) = reports earlier ++ [⟨number, statement⟩] := by
      simp [reports, List.filterMap_append, said]
    -- Each job is right exactly if nothing newer was said of it, or nothing is new.
    have right (key : JobKey) : step.after.tables.mirrored key =
          LateReports.replay ((asReported (earlier ++ [step])).map (·.statement.word key)) ↔
        (∀ other ∈ reports earlier, number < other.session → other.statement.word key = .silent) ∨
          (statement.word key).Agrees (step.before.tables.mirrored key) := by
      rw [(mirrored_does _ done isDone).2, asReported, reported, mirrored]
      exact apply_eq_inOrderMade_iff (·.session) (fun report : SessionReport => report.statement.word key)
        (reports earlier) ⟨number, statement⟩
    constructor
    · intro last report key here superseded
      cases said.symm.trans here
      obtain ⟨newer, member, later, spoken⟩ := superseded
      exact ((right key).mp (last.mirrored key)).resolve_left fun silent => spoken (silent newer member later)
    · intro old
      refine ⟨fun key => (right key).mpr ?_, fun report key here superseded => ?_,
        fun report key row here superseded found present => ?_⟩
      · by_cases superseded : Superseded earlier ⟨number, statement⟩ key
        · exact .inr (old _ key said superseded)
        · refine .inl fun other member later => ?_
          by_contra spoken
          exact superseded ⟨other, member, later, spoken⟩
      · cases said.symm.trans here
        exact unversioned_of_agrees done (old _ key said superseded)
      · cases said.symm.trans here
        exact undeleted_of_agrees done isDone (old _ key said superseded) found present

theorem asLastReported_run
    (reaches : Reaches (HubCall.Does config.runtime) (HubOperation.body config) .empty pool run) :
    (AtEach AsLastReported run ↔ AtEach NothingNew run) ∧
      (AtEach AsLastReported run → ∀ key, pool.state.tables.mirrored key =
        LateReports.replay ((asReported run).map (·.statement.word key))) := by
  have does := reaches.does
  have follows := (reaches.allowed (HubFollows config) (obeys_hub config)).2
  induction reaches with
  | start => exact ⟨iff_of_true atEach_nil atEach_nil, fun _ key => rfl⟩
  | begin _ _ ih => exact ih does follows
  | @call state after earlier later operation said request next run _ answer done ih =>
    obtain ⟨same, mirrored⟩ := ih (fun taken member => does taken (List.mem_append_left _ member))
      fun taken member => follows taken (List.mem_append_left _ member)
    have newest := List.mem_append_right run
      (List.mem_singleton_self (⟨operation, said, request, answer, state, after⟩ : HubStep))
    rw [atEach_concat, atEach_concat]
    refine ⟨?_, fun ⟨_, last⟩ key => last.mirrored key⟩
    rw [← same]
    exact and_congr_right fun before =>
      asLastReported_iff (does _ newest) (follows _ newest) (mirrored before)

/-- **Every job is mirrored as its worker last reported it, exactly in the runs in
which what comes late from a superseded session is nothing new.** -/
theorem as_last_reported_iff
    (reaches : Reaches (HubCall.Does config.runtime) (HubOperation.body config) .empty pool run) :
    AtEach AsLastReported run ↔ AtEach NothingNew run :=
  (asLastReported_run reaches).1

/-! The first session of a worker is superseded while a delta of it is queued. The
second reports what the worker has seen since; then the delta is handled. -/

def supersededWork : List HubWork := [
  .begin (sampleSession 0), .steps 0 9 sampleHello,
  .begin (sampleSession 1), .steps 1 9 sampleHello, .steps 1 2 (sampleDelta true []),
  .steps 0 2 (sampleDelta false [])]

def supersededRun : List HubStep := (afterHubWork supersededWork).2

private theorem supersededRun_reaches : Reaches (HubCall.Does sampleHub.runtime) (HubOperation.body sampleHub) .empty
    (afterHubWork supersededWork).1 supersededRun :=
  reaches_afterHubWork _

private theorem superseded_not_mirrored : ¬ AtEach AsLastReported supersededRun := by
  have checked : (supersededRun[21]?).any (fun step => decide ((reportOf step).any (·.session = 0) = true ∧
        (step.after.tables.jobVersions ⟨js "i1", js "j1"⟩).length ≠
          (step.before.tables.jobVersions ⟨js "i1", js "j1"⟩).length)) = true ∧
      (reports (supersededRun.take 21)).any (fun newer =>
        decide (0 < newer.session ∧ newer.statement.word ⟨js "i1", js "j1"⟩ ≠ .silent)) = true := by
    decide +kernel
  obtain ⟨step, there, shown⟩ := (Option.any_eq_true _ _).mp checked.1
  obtain ⟨said, grown⟩ := of_decide_eq_true shown
  obtain ⟨report, isReport, first⟩ := (Option.any_eq_true _ _).mp said
  obtain ⟨newer, member, later⟩ := List.any_eq_true.mp checked.2
  obtain ⟨above, spoken⟩ := of_decide_eq_true later
  intro each
  have last := each _ step _ (split_at_getElem? there)
  have zero : report.session = 0 := of_decide_eq_true first
  exact grown (congrArg List.length (last.unversioned report _ isReport ⟨newer, member, zero ▸ above, spoken⟩))

/-- The delta of the first session is something new. -/
theorem superseded_delta_new : ¬ AtEach NothingNew supersededRun := fun old =>
  superseded_not_mirrored ((as_last_reported_iff supersededRun_reaches).mpr old)

/-- **A superseded session can overwrite what its successor reported.** -/
theorem superseded_overwrites :
    ¬ ∀ (config : HubConfig) (run : List HubStep) (pool : Pool HubAnswer Unit Unit HubStore HubOperation),
      Reaches (HubCall.Does config.runtime) (HubOperation.body config) .empty pool run →
        AtEach AsLastReported run :=
  fun claim => superseded_not_mirrored (claim sampleHub supersededRun _ supersededRun_reaches)

end RemoteSqlAgent
