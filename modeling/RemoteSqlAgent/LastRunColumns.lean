import RemoteSqlAgent.HistoryConfluence

/-! The last run of a job, beside its history. History writes it for jobs that
have a row; a definition makes the row. So a job whose history was there before
its row has no last run, until a batch has rows of it again. -/
namespace RemoteSqlAgent
open Js CallProgram

/-- What messages do to the mirror of an instance: a batch of history, or a
transaction of a snapshot or of a definition delta. -/
inductive MirrorStep where
  | history (batch : HistoryBatch)
  | job (statement : JobCall)

/-- The jobs as a transaction leaves them. A row that is new has no last run. -/
def MirrorStore.withTables (store : MirrorStore) (tables : JobTables) : MirrorStore :=
  { store with
    tables := tables
    lastRun := fun job => if store.Mirrored job then store.lastRun job else none }

def MirrorStep.Does (runtime : Runtime) (store : MirrorStore) : MirrorStep → MirrorStore → Prop
  | history batch, after =>
    after = (perform HistoryCall.respond store (ingestHistory batch.instanceId batch.rows)).2
  | job statement, after => ∃ answer tables, statement.Does runtime store.tables answer tables ∧
    after = store.withTables tables

/-- A step that was taken. -/
structure MirrorTaken where
  before : MirrorStore
  step : MirrorStep
  after : MirrorStore

/-- A run is the list of the steps from the empty database. -/
inductive MirrorReaches (runtime : Runtime) : MirrorStore → List MirrorTaken → Prop where
  | start : MirrorReaches runtime .empty []
  | step {store after : MirrorStore} {run : List MirrorTaken} (reaches : MirrorReaches runtime store run)
      (step : MirrorStep) (does : step.Does runtime store after) :
      MirrorReaches runtime after (run ++ [⟨store, step, after⟩])

/-! ## What goes by -/

/-- A batch that is stored has rows of the job. -/
def MirrorStep.Mentions (job : JobKey) : MirrorStep → Prop
  | history batch => WellDated batch.rows ∧ job ∈ (historyValues batch.instanceId batch.rows).map (·.job)
  | .job _ => False

/-- The step makes the row of a job that has outcomes already. -/
def MirrorTaken.Late (job : JobKey) (taken : MirrorTaken) : Prop :=
  ¬ taken.before.Mirrored job ∧ taken.after.Mirrored job ∧ taken.before.latest job ≠ none

/-- The row of the job was made when outcomes of it were stored, and no batch has
had rows of it since. -/
def Missed (job : JobKey) (run : List MirrorTaken) : Prop :=
  ∃ earlier taken later, run = earlier ++ taken :: later ∧ taken.Late job ∧
    ∀ other ∈ later, ¬ other.step.Mentions job

theorem missed_concat {job : JobKey} {run : List MirrorTaken} {last : MirrorTaken} :
    Missed job (run ++ [last]) ↔ last.Late job ∨ Missed job run ∧ ¬ last.step.Mentions job := by
  constructor
  · rintro ⟨earlier, taken, later, split, late, quiet⟩
    rcases List.eq_nil_or_concat' later with rfl | ⟨between, tip, rfl⟩
    · obtain ⟨rfl, same⟩ := List.append_inj' split rfl
      cases same
      exact .inl late
    · rw [← List.cons_append, ← List.append_assoc] at split
      obtain ⟨rfl, same⟩ := List.append_inj' split rfl
      cases same
      refine .inr ⟨⟨earlier, taken, between, rfl, late, fun other member => ?_⟩, ?_⟩
      · exact quiet other (List.mem_append_left _ member)
      · exact quiet last (List.mem_append_right _ List.mem_cons_self)
  · rintro (late | ⟨⟨earlier, taken, later, rfl, late, quiet⟩, unmentioned⟩)
    · exact ⟨run, last, [], rfl, late, by simp⟩
    · refine ⟨earlier, taken, later ++ [last], by simp, late, fun other member => ?_⟩
      rcases List.mem_append.mp member with before | isLast
      · exact quiet other before
      · exact List.mem_singleton.mp isLast ▸ unmentioned

/-! ## One step -/

section Step
variable {runtime : Runtime} {store after : MirrorStore} {job : JobKey}

/-- No row of a job is ever removed. -/
theorem JobCall.Does.keeps {tables next : JobTables} {call : JobCall} {answer : JobAnswer call}
    (does : call.Does runtime tables answer next) (there : (tables.jobs job).isSome = true) :
    (next.jobs job).isSome = true := by
  cases call with
  | recordJobVersion input =>
    cases answer with
    | error message => exact (show next = tables from does) ▸ there
    | ok result =>
      obtain ⟨now, recorded⟩ := does
      cases parsed : parseJobDefinition runtime input.canonicalJson with
      | error message =>
        rw [JobTables.recordJobVersion_of_error parsed] at recorded
        cases recorded
      | ok definition =>
        rw [JobTables.recordJobVersion_of_parsed parsed, Except.ok.injEq] at recorded
        rcases JobTables.observe_cases tables input definition (input.detectedAt.getD now) with
          ⟨existing, -, -, repeated⟩ | ⟨-, version, -, added⟩
        · rw [repeated] at recorded
          cases recorded
          unfold JobTables.reappear
          split
          · by_cases same : job = input.key
            · simp [JobTables.setJob, same]
            · simpa [JobTables.setJob, same] using there
          · exact there
        · rw [added] at recorded
          cases recorded
          by_cases same : job = input.key
          · simp [JobTables.addVersion, same]
          · simpa [JobTables.addVersion, same] using there
  | markJobDeleted instanceId jobUuid =>
    cases answer with
    | error message => exact (show next = tables from does) ▸ there
    | ok _ =>
      obtain ⟨now, rfl⟩ := does
      by_cases same : job = ⟨instanceId, jobUuid⟩
      · subst same
        simpa [JobTables.markJobDeleted, JobTables.updateJob] using there
      · simpa [JobTables.markJobDeleted, JobTables.updateJob, same] using there
  | markJobsMissingFromSnapshot instanceId seen =>
    cases answer with
    | error message => exact (show next = tables from does) ▸ there
    | ok _ =>
      obtain ⟨now, rfl⟩ := does
      simpa [JobTables.markJobsMissingFromSnapshot] using there

theorem latest_of_history (same : after.jobHistory = store.jobHistory) : after.latest job = store.latest job := by
  rw [MirrorStore.latest, MirrorStore.latest, MirrorStore.outcomes, MirrorStore.outcomes, same]

/-- A batch with a time that is no date is refused as a whole. -/
theorem perform_ingestHistory_undated {instanceId : JsString} {rows : List HistoryRow} (undated : ¬ WellDated rows) :
    (perform HistoryCall.respond store (ingestHistory instanceId rows)).2 = store := by
  simp only [WellDated, not_forall, not_not] at undated
  obtain ⟨row, member, invalid⟩ := undated
  have bound : .error (js "Invalid time value") ∈ rows.filterMap (historyValue instanceId) :=
    List.mem_filterMap.mpr ⟨row, member, by simp [historyValue, invalid]⟩
  unfold ingestHistory
  split
  · rfl
  · cases values : rows.filterMap (historyValue instanceId) with
    | nil => rfl
    | cons first rest =>
      rw [values] at bound
      have refused : ∀ values : List (Except JsString JobHistoryRow), .error (js "Invalid time value") ∈ values →
          ∃ message, values.mapM id = .error message := by
        intro values
        induction values with
        | nil => intro inside; cases inside
        | cons value rest ih =>
          intro inside
          rw [List.mapM_cons]
          cases value with
          | error message => exact ⟨message, rfl⟩
          | ok found =>
            obtain ⟨message, failed⟩ := ih (by simpa using inside)
            exact ⟨message, by rw [failed]; rfl⟩
      obtain ⟨message, failed⟩ := refused _ bound
      simp only [failed]
      rfl

/-- What a batch does to the last run of a job, and to its latest outcome. -/
theorem history_spec (job : JobKey) {batch : HistoryBatch}
    (does : (MirrorStep.history batch).Does runtime store after) :
    after.tables = store.tables ∧
      ((MirrorStep.history batch).Mentions job → store.Mirrored job →
        after.lastRun job = ((after.latest job).map (·.lastRun)).or (store.lastRun job) ∧
          (after.latest job = none → store.latest job = none)) ∧
      ((MirrorStep.history batch).Mentions job → ¬ store.Mirrored job → after.lastRun job = store.lastRun job) ∧
      (¬ (MirrorStep.history batch).Mentions job →
        after.lastRun job = store.lastRun job ∧ after.latest job = store.latest job) := by
  rw [MirrorStep.Does] at does
  by_cases dated : WellDated batch.rows
  · obtain ⟨result, performed, -⟩ := perform_ingestHistory store batch.instanceId dated
    rw [performed] at does
    by_cases bare : historyValues batch.instanceId batch.rows = []
    · rw [if_pos bare] at does
      subst does
      have unmentioned : ¬ (MirrorStep.history batch).Mentions job := by
        simp [MirrorStep.Mentions, bare]
      exact ⟨rfl, fun mentions => absurd mentions unmentioned, fun mentions => absurd mentions unmentioned,
        fun _ => ⟨rfl, rfl⟩⟩
    · rw [if_neg bare] at does
      subst does
      have jobs : (MirrorStep.history batch).Mentions job ↔ job.instanceId = batch.instanceId ∧
          job.jobUuid ∈ (historyValues batch.instanceId batch.rows).map (·.jobUuid) := by
        simp only [MirrorStep.Mentions, dated, true_and]
        exact mem_map_job _ fun value => instanceId_of_historyValue
      have latest : (store.ingest batch.instanceId (historyValues batch.instanceId batch.rows)).latest job =
          (store.insertHistory (historyValues batch.instanceId batch.rows)).latest job :=
        latest_of_history (MirrorStore.ingest_jobHistory _ _)
      have lastRun := store.ingest_lastRun batch.instanceId (historyValues batch.instanceId batch.rows) job
      rw [latest]
      refine ⟨MirrorStore.ingest_tables _ _, fun mentions mirrored => ⟨?_, fun none => ?_⟩,
        fun mentions unmirrored => ?_, fun unmentioned => ⟨?_, ?_⟩⟩
      · rw [lastRun, if_pos (jobs.mp mentions), MirrorStore.refreshed]
        exact if_pos mirrored
      · exact latest_none_of_insert none
      · rw [lastRun, if_pos (jobs.mp mentions), MirrorStore.refreshed]
        exact if_neg unmirrored
      · rw [lastRun, if_neg fun there => unmentioned (jobs.mpr there)]
      · exact latest_insert_other fun there => unmentioned ⟨dated, there⟩
  · rw [perform_ingestHistory_undated dated] at does
    subst does
    exact ⟨rfl, fun mentions => absurd mentions.1 dated, fun mentions => absurd mentions.1 dated,
      fun _ => ⟨rfl, rfl⟩⟩

/-- What a transaction on jobs does to the last run of a job. -/
theorem job_spec (job : JobKey) {statement : JobCall} (does : (MirrorStep.job statement).Does runtime store after) :
    after.latest job = store.latest job ∧ (store.Mirrored job → after.Mirrored job) ∧
      after.lastRun job = if store.Mirrored job then store.lastRun job else none := by
  obtain ⟨answer, tables, does, rfl⟩ := does
  exact ⟨rfl, fun mirrored => does.keeps mirrored, rfl⟩

end Step

/-! ## Runs -/

/-- The last run beside a job is that of its latest outcome, and there is none
only if it has no outcome. -/
def MirrorStore.ShowsLastRun (store : MirrorStore) (job : JobKey) : Prop :=
  store.lastRun job = (store.latest job).map (·.lastRun)

/-- Whether the last run of a job is shown, according to what went by. -/
structure Kept (job : JobKey) (store : MirrorStore) (run : List MirrorTaken) : Prop where
  unmirrored : ¬ store.Mirrored job → store.lastRun job = none ∧ ¬ Missed job run
  missed : Missed job run → store.lastRun job = none ∧ store.latest job ≠ none
  shown : store.Mirrored job → ¬ Missed job run → store.ShowsLastRun job

theorem Kept.history {runtime : Runtime} {store after : MirrorStore} {run : List MirrorTaken} {job : JobKey}
    (kept : Kept job store run) {batch : HistoryBatch} (does : (MirrorStep.history batch).Does runtime store after) :
    Kept job after (run ++ [⟨store, .history batch, after⟩]) := by
  obtain ⟨tables, mentioned, unmirrored, other⟩ := history_spec job does
  have mirrors : after.Mirrored job ↔ store.Mirrored job := by
    rw [MirrorStore.Mirrored, MirrorStore.Mirrored, tables]
  have missed : Missed job (run ++ [⟨store, .history batch, after⟩]) ↔
      Missed job run ∧ ¬ (MirrorStep.history batch).Mentions job := by
    rw [missed_concat]
    refine or_iff_right fun late => late.1 ?_
    exact mirrors.mp late.2.1
  by_cases mentions : (MirrorStep.history batch).Mentions job
  · refine ⟨fun free => ?_, fun isMissed => absurd mentions (missed.mp isMissed).2, fun there _ => ?_⟩
    · have before := kept.unmirrored fun there => free (mirrors.mpr there)
      exact ⟨(unmirrored mentions fun there => free (mirrors.mpr there)).trans before.1,
        fun isMissed => before.2 (missed.mp isMissed).1⟩
    · obtain ⟨lastRun, monotone⟩ := mentioned mentions (mirrors.mp there)
      rw [MirrorStore.ShowsLastRun, lastRun]
      cases found : after.latest job with
      | some row => rfl
      | none =>
        rw [Option.map_none, Option.none_or]
        by_cases isMissed : Missed job run
        · exact absurd (monotone found) (kept.missed isMissed).2
        · rw [kept.shown (mirrors.mp there) isMissed, monotone found, Option.map_none]
  · obtain ⟨lastRun, latest⟩ := other mentions
    refine ⟨fun free => ?_, fun isMissed => ?_, fun there notMissed => ?_⟩
    · have before := kept.unmirrored fun there => free (mirrors.mpr there)
      exact ⟨lastRun.trans before.1, fun isMissed => before.2 (missed.mp isMissed).1⟩
    · rw [lastRun, latest]
      exact kept.missed (missed.mp isMissed).1
    · rw [MirrorStore.ShowsLastRun, lastRun, latest]
      exact kept.shown (mirrors.mp there) fun isMissed => notMissed (missed.mpr ⟨isMissed, mentions⟩)

theorem Kept.job {runtime : Runtime} {store after : MirrorStore} {run : List MirrorTaken} {job : JobKey}
    (kept : Kept job store run) {statement : JobCall} (does : (MirrorStep.job statement).Does runtime store after) :
    Kept job after (run ++ [⟨store, .job statement, after⟩]) := by
  obtain ⟨latest, stays, lastRun⟩ := job_spec job does
  have unmentioned : ¬ (MirrorStep.job statement).Mentions job := id
  by_cases before : store.Mirrored job
  · rw [if_pos before] at lastRun
    have missed : Missed job (run ++ [⟨store, .job statement, after⟩]) ↔ Missed job run := by
      rw [missed_concat]
      exact ⟨fun either => either.elim (fun late => absurd before late.1) (·.1), fun isMissed =>
        .inr ⟨isMissed, unmentioned⟩⟩
    refine ⟨fun free => absurd (stays before) free, fun isMissed => ?_, fun _ notMissed => ?_⟩
    · rw [lastRun, latest]
      exact kept.missed (missed.mp isMissed)
    · rw [MirrorStore.ShowsLastRun, lastRun, latest]
      exact kept.shown before fun isMissed => notMissed (missed.mpr isMissed)
  · rw [if_neg before] at lastRun
    have missed : Missed job (run ++ [⟨store, .job statement, after⟩]) ↔
        after.Mirrored job ∧ store.latest job ≠ none := by
      rw [missed_concat]
      constructor
      · rintro (late | ⟨isMissed, -⟩)
        · exact late.2
        · exact absurd isMissed (kept.unmirrored before).2
      · exact fun late => .inl ⟨before, late⟩
    refine ⟨fun free => ⟨lastRun, fun isMissed => free (missed.mp isMissed).1⟩, fun isMissed => ?_,
      fun there notMissed => ?_⟩
    · exact ⟨lastRun, latest ▸ (missed.mp isMissed).2⟩
    · have bare : store.latest job = none := by
        by_contra some
        exact notMissed (missed.mpr ⟨there, some⟩)
      rw [MirrorStore.ShowsLastRun, lastRun, latest, bare, Option.map_none]

theorem MirrorReaches.kept {runtime : Runtime} {store : MirrorStore} {run : List MirrorTaken}
    (reaches : MirrorReaches runtime store run) (job : JobKey) : Kept job store run := by
  induction reaches with
  | start =>
    have nothing : ¬ Missed job [] := by
      rintro ⟨earlier, taken, later, split, -⟩
      simp at split
    exact ⟨fun _ => ⟨rfl, nothing⟩, fun missed => absurd missed nothing, fun mirrored => by cases mirrored⟩
  | step _ step does ih =>
    cases step with
    | history batch => exact ih.history does
    | job statement => exact ih.job does

/-- **When the last run of every job is shown**: exactly if no job got its row when
outcomes of it were stored, with no batch since that has rows of it. -/
theorem last_runs_shown {runtime : Runtime} {store : MirrorStore} {run : List MirrorTaken}
    (reaches : MirrorReaches runtime store run) :
    (∀ job, store.Mirrored job → store.ShowsLastRun job) ↔ ∀ job, ¬ Missed job run := by
  constructor
  · intro shown job missed
    obtain ⟨blank, some⟩ := (reaches.kept job).missed missed
    by_cases mirrored : store.Mirrored job
    · have isShown := shown job mirrored
      rw [MirrorStore.ShowsLastRun, blank] at isShown
      exact some (Option.map_eq_none_iff.mp isShown.symm)
    · exact ((reaches.kept job).unmirrored mirrored).2 missed
  · exact fun never job mirrored => (reaches.kept job).shown mirrored (never job)

/-! ## A sample job, before and after its history -/

def sampleJobKey : JobKey := ⟨js "i1", js "j1"⟩

/-- The transaction that makes the row of the sample job. -/
theorem sample_mirrored (store : MirrorStore) :
    ∃ after, (MirrorStep.job (.recordJobVersion (observedInput true))).Does observingRuntime store after ∧
      after.Mirrored sampleJobKey := by
  have parsed : parseJobDefinition observingRuntime (observedInput true).canonicalJson = .ok (observedJob true) :=
    parse_observedText true
  have recorded : store.tables.recordJobVersion observingRuntime (observedInput true) 1000 = _ :=
    JobTables.recordJobVersion_of_parsed parsed 1000
  refine ⟨store.withTables (store.tables.observe (observedInput true) (observedJob true) 1000).1,
    ⟨.ok _, _, ⟨1000, recorded⟩, rfl⟩, ?_⟩
  change ((store.tables.observe (observedInput true) (observedJob true) 1000).1.jobs
    (observedInput true).key).isSome = true
  rcases JobTables.observe_cases store.tables (observedInput true) (observedJob true) 1000 with
    ⟨existing, found, -, repeated⟩ | ⟨-, version, -, added⟩
  · rw [repeated]
    unfold JobTables.reappear
    split
    · simp [JobTables.setJob]
    · rw [found, Option.isSome_some]
  · rw [added]
    simp [JobTables.addVersion]

/-- Once the job is mirrored, its history is shown. -/
theorem sample_shown : ∃ store run, MirrorReaches observingRuntime store run ∧ store.Mirrored sampleJobKey ∧
    store.latest sampleJobKey ≠ none ∧ store.ShowsLastRun sampleJobKey := by
  obtain ⟨mirror, does, mirrored⟩ := sample_mirrored .empty
  obtain ⟨after, ingests⟩ : ∃ after,
    (MirrorStep.history (sampleBatch [sampleRun 2 0 0])).Does observingRuntime mirror after :=
    ⟨_, rfl⟩
  have tables : ∀ job, after.Mirrored job ↔ mirror.Mirrored job := fun job => by
    rw [MirrorStore.Mirrored, MirrorStore.Mirrored, (history_spec job ingests).1]
  have reaches := (MirrorReaches.start.step _ does).step _ ingests
  have never : ∀ job, ¬ Missed job ([] ++ [⟨.empty, .job (.recordJobVersion (observedInput true)), mirror⟩] ++
      [⟨mirror, .history (sampleBatch [sampleRun 2 0 0]), after⟩]) := by
    intro job missed
    rcases missed_concat.mp missed with late | ⟨early, -⟩
    · exact late.1 ((tables job).mp late.2.1)
    · rcases missed_concat.mp early with late | ⟨⟨earlier, taken, later, split, -⟩, -⟩
      · exact late.2.2 rfl
      · simp at split
  have still := (tables sampleJobKey).mpr mirrored
  refine ⟨_, _, reaches, still, ?_, (last_runs_shown reaches).mpr never sampleJobKey still⟩
  have history :
      after.jobHistory = ((MirrorStore.empty.jobHistory).insertNew (historyValues (js "i1") [sampleRun 2 0 0])).1 := by
    obtain ⟨answer, changed, -, rfl⟩ := does
    obtain ⟨result, performed, -⟩ := perform_ingestHistory (MirrorStore.empty.withTables changed) (js "i1")
      (show WellDated [sampleRun 2 0 0] from fun row member => sampleRun_dated row (by simp_all))
    rw [MirrorStep.Does, sampleBatch, performed, if_neg (by decide +kernel)] at ingests
    rw [ingests, MirrorStore.ingest_jobHistory]
    rfl
  rw [MirrorStore.latest, MirrorStore.outcomes, history]
  decide +kernel

/-- **Counterexample.** An outcome that is stored before the job has a row is not
shown beside it. -/
theorem backlog_unshown : ∃ store run, MirrorReaches observingRuntime store run ∧ store.Mirrored sampleJobKey ∧
    ¬ store.ShowsLastRun sampleJobKey := by
  obtain ⟨mirror, does, mirrored⟩ := sample_mirrored
    (perform HistoryCall.respond .empty (ingestHistory (js "i1") [sampleRun 2 0 0])).2
  have reaches := (MirrorReaches.start.step (.history (sampleBatch [sampleRun 2 0 0])) rfl).step _ does
  refine ⟨mirror, _, reaches, mirrored, ?_⟩
  obtain ⟨latest, -, lastRun⟩ := job_spec sampleJobKey does
  rw [MirrorStore.ShowsLastRun, latest, lastRun]
  decide +kernel

end RemoteSqlAgent
