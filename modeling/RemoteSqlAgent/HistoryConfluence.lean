import RemoteSqlAgent.HistoryIngest
import Mathlib.Order.Bounds.Basic

/-! History in any batches. What a run of batches leaves depends only on which
rows were in them: the stored rows, the marks and the last runs do, and each new
outcome is reported by the one batch that brought it first. -/
namespace RemoteSqlAgent
open Js CallProgram

/-- Rows of one instance, sent together. -/
structure HistoryBatch where
  instanceId : JsString
  rows : List HistoryRow

/-- The runs that a batch reported as new. -/
structure HistoryReport where
  instanceId : JsString
  newRuns : List IngestedRun

/-- The rows of some batches, with their instances. -/
def contents (batches : List HistoryBatch) : List (JsString × HistoryRow) :=
  batches.flatMap fun batch => batch.rows.map fun row => (batch.instanceId, row)

/-- The rows of some batches as they are stored. -/
def storedContents (batches : List HistoryBatch) : List JobHistoryRow :=
  batches.flatMap fun batch => historyValues batch.instanceId batch.rows

/-- Ingest batches one after the other. -/
def MirrorStore.deliver (store : MirrorStore) : List HistoryBatch → MirrorStore × List HistoryReport
  | [] => (store, [])
  | batch :: rest =>
    let (ended, between) := perform HistoryCall.respond store (ingestHistory batch.instanceId batch.rows)
    let newRuns := match ended with
      | .ok result => result.newRuns
      | .error _ => []
    let (after, reports) := between.deliver rest
    (after, ⟨batch.instanceId, newRuns⟩ :: reports)

/-! ## The greatest of a set -/

/-- The mark of a set of ids: its greatest, if it has any. -/
def IsMark (ids : Set Int) (mark : Option Int) : Prop :=
  (∀ greatest, mark = some greatest → IsGreatest ids greatest) ∧ (mark = none → ids = ∅)

theorem IsMark.unique {ids : Set Int} {mark other : Option Int} (first : IsMark ids mark) (second : IsMark ids other) :
    mark = other := by
  cases mark with
  | none =>
    cases other with
    | none => rfl
    | some greatest =>
      have member := (second.1 greatest rfl).1
      rw [first.2 rfl] at member
      exact absurd member (Set.notMem_empty _)
  | some greatest =>
    cases other with
    | none =>
      have member := (first.1 greatest rfl).1
      rw [second.2 rfl] at member
      exact absurd member (Set.notMem_empty _)
    | some another => rw [(first.1 greatest rfl).unique (second.1 another rfl)]

/-- The mark of what was there and what is new is that of the mark and what is new. -/
theorem IsMark.union {ids more : Set Int} {mark after : Option Int} (first : IsMark ids mark)
    (second : IsMark ({id | mark = some id} ∪ more) after) : IsMark (ids ∪ more) after := by
  cases mark with
  | none =>
    rw [first.2 rfl]
    simpa using second
  | some greatest =>
    obtain ⟨member, above⟩ := first.1 greatest rfl
    constructor
    · intro top isTop
      obtain ⟨inside, bound⟩ := second.1 top isTop
      refine ⟨?_, ?_⟩
      · rcases inside with same | new
        · exact .inl (Option.some.inj same ▸ member)
        · exact .inr new
      · rintro id (old | new)
        · exact (above old).trans (bound (.inl rfl))
        · exact bound (.inr new)
    · intro none
      have inside : greatest ∈ {id | some greatest = some id} ∪ more := .inl rfl
      rw [second.2 none] at inside
      exact absurd inside (Set.notMem_empty _)

/-! ## What is left of some rows -/

/-- The ids of an instance among some rows. -/
def idsOf (values : List JobHistoryRow) (instanceId : JsString) : Set Int :=
  {id | ∃ value ∈ values, value.instanceId = instanceId ∧ value.sqlInstanceId = id}

/-- What a store is once these rows were ingested: a function of what it was, and
of which rows they are. -/
structure Ingested (store : MirrorStore) (values : List JobHistoryRow) (after : MirrorStore) : Prop where
  history : ∀ row, row ∈ after.jobHistory ↔ row ∈ store.jobHistory ∨ row ∈ values ∧ ¬ store.jobHistory.Holds row.key
  marks : ∀ instanceId,
    IsMark ({id | store.syncState instanceId = some id} ∪ idsOf values instanceId) (after.syncState instanceId)
  lastRuns : ∀ job, after.lastRun job =
    if job ∈ values.map (·.job) ∧ store.Mirrored job then ((after.latest job).map (·.lastRun)).or (store.lastRun job)
    else store.lastRun job
  tables : after.tables = store.tables

/-- No two of the rows have one key. -/
def Determined (values : List JobHistoryRow) : Prop := ∀ a ∈ values, ∀ b ∈ values, a.key = b.key → a = b

theorem mem_outcomes {store : MirrorStore} {job : JobKey} {row : JobHistoryRow} :
    row ∈ store.outcomes job ↔ row ∈ store.jobHistory ∧ row.job = job ∧ row.stepId = 0 := by
  simp [MirrorStore.outcomes, KeyedTable.mem_iff]

/-- No two outcomes of a job are of one moment. -/
theorem outcomes_separated (store : MirrorStore) (job : JobKey) : ∀ a ∈ store.outcomes job, ∀ b ∈ store.outcomes job,
    a.moment = b.moment → a = b := by
  intro a first b second same
  obtain ⟨inside, isJob, -⟩ := mem_outcomes.mp first
  obtain ⟨there, also, -⟩ := mem_outcomes.mp second
  refine store.jobHistory.eq_of_key inside there (Prod.ext ?_ ?_)
  · have place := congrArg JobKey.instanceId (isJob.trans also.symm)
    exact place
  · exact (Prod.mk.inj (toLex_inj.mp same)).2

/-- The latest outcome depends only on which outcomes there are. -/
theorem latest_congr {store other : MirrorStore} {job : JobKey}
    (same : ∀ row, row ∈ store.outcomes job ↔ row ∈ other.outcomes job) : store.latest job = other.latest job :=
  KeyedTable.argmax_eq_of_mem_iff (outcomes_separated store job) same

/-- A job has an outcome as long as it had one before. -/
theorem latest_none_of_insert {store : MirrorStore} {values : List JobHistoryRow} {job : JobKey}
    (none : (store.insertHistory values).latest job = none) : store.latest job = Option.none := by
  rw [MirrorStore.latest, List.argmax_eq_none, List.eq_nil_iff_forall_not_mem] at none ⊢
  intro row member
  obtain ⟨there, isOutcome⟩ := mem_outcomes.mp member
  exact none row (mem_outcomes.mpr ⟨KeyedTable.mem_insertNew.mpr (.inl there), isOutcome⟩)

/-- Rows of other jobs do not change the latest outcome of a job. -/
theorem latest_insert_other {store : MirrorStore} {values : List JobHistoryRow} {job : JobKey}
    (other : job ∉ values.map (·.job)) : (store.insertHistory values).latest job = store.latest job := by
  refine latest_congr fun row => ?_
  rw [mem_outcomes, mem_outcomes, MirrorStore.insertHistory, KeyedTable.mem_insertNew]
  constructor
  · rintro ⟨before | new, isJob, isOutcome⟩
    · exact ⟨before, isJob, isOutcome⟩
    · exact absurd (List.mem_map.mpr ⟨row, (KeyedTable.mem_of_inserted new).1, isJob⟩) other
  · rintro ⟨before, isOutcome⟩
    exact ⟨.inl before, isOutcome⟩

namespace Ingested
variable {store between after other : MirrorStore} {values more : List JobHistoryRow}

theorem refl (store : MirrorStore) : Ingested store [] store where
  history row := by simp
  marks instanceId := by
    have bare : idsOf [] instanceId = ∅ := Set.eq_empty_iff_forall_notMem.mpr fun id ⟨_, member, _⟩ => nomatch member
    rw [bare, Set.union_empty]
    cases mark : store.syncState instanceId with
    | none => exact ⟨nofun, fun _ => by simp⟩
    | some current =>
      refine ⟨fun greatest same => ?_, nofun⟩
      cases same
      exact ⟨rfl, fun id inside => (Option.some.inj inside).ge⟩
  lastRuns job := by simp
  tables := rfl

/-- Keys that are held afterwards. -/
theorem holds (ingested : Ingested store values after) {key : HistoryKey} :
    after.jobHistory.Holds key ↔ store.jobHistory.Holds key ∨ key ∈ values.map JobHistoryRow.key := by
  constructor
  · intro held
    obtain ⟨row, member, rfl⟩ := KeyedTable.holds_iff.mp held
    rcases (ingested.history row).mp member with before | ⟨new, -⟩
    · exact .inl (KeyedTable.holds_of_mem before)
    · exact .inr (List.mem_map_of_mem new)
  · rintro (before | new)
    · obtain ⟨row, member, rfl⟩ := KeyedTable.holds_iff.mp before
      exact KeyedTable.holds_of_mem ((ingested.history row).mpr (.inl member))
    · obtain ⟨row, member, rfl⟩ := List.mem_map.mp new
      by_cases before : store.jobHistory.Holds row.key
      · obtain ⟨found, there, same⟩ := KeyedTable.holds_iff.mp before
        rw [← same]
        exact KeyedTable.holds_of_mem ((ingested.history found).mpr (.inl there))
      · exact KeyedTable.holds_of_mem ((ingested.history row).mpr (.inr ⟨member, before⟩))

/-- A job has an outcome as long as it had one before. -/
theorem latest_none (ingested : Ingested store values after) {job : JobKey} (none : after.latest job = none) :
    store.latest job = Option.none := by
  rw [MirrorStore.latest, List.argmax_eq_none, List.eq_nil_iff_forall_not_mem] at none ⊢
  intro row member
  obtain ⟨there, isOutcome⟩ := mem_outcomes.mp member
  exact none row (mem_outcomes.mpr ⟨(ingested.history row).mpr (.inl there), isOutcome⟩)

/-- Rows of other jobs do not change the latest outcome of a job. -/
theorem latest_other (ingested : Ingested store values after) {job : JobKey} (other : job ∉ values.map (·.job)) :
    after.latest job = store.latest job := by
  refine latest_congr fun row => ?_
  rw [mem_outcomes, mem_outcomes, ingested.history]
  constructor
  · rintro ⟨before | ⟨new, -⟩, isJob, isOutcome⟩
    · exact ⟨before, isJob, isOutcome⟩
    · exact absurd (List.mem_map.mpr ⟨row, new, isJob⟩) other
  · rintro ⟨before, isOutcome⟩
    exact ⟨.inl before, isOutcome⟩

/-- Rows ingested after others, of which none has the key of another. -/
theorem trans (first : Ingested store values between) (second : Ingested between more after)
    (determined : Determined (values ++ more)) : Ingested store (values ++ more) after where
  history row := by
    rw [second.history, first.history, first.holds, List.mem_append]
    constructor
    · rintro ((before | ⟨early, free⟩) | ⟨late, free⟩)
      · exact .inl before
      · exact .inr ⟨.inl early, free⟩
      · exact .inr ⟨.inr late, fun held => free (.inl held)⟩
    · rintro (before | ⟨early | late, free⟩)
      · exact .inl (.inl before)
      · exact .inl (.inr ⟨early, free⟩)
      · by_cases repeated : row.key ∈ values.map JobHistoryRow.key
        · obtain ⟨same, early, equal⟩ := List.mem_map.mp repeated
          have one := determined same (List.mem_append_left _ early) row (List.mem_append_right _ late) equal
          exact .inl (.inr ⟨one ▸ early, free⟩)
        · exact .inr ⟨late, fun held => held.elim free repeated⟩
  marks instanceId := by
    have parts : idsOf (values ++ more) instanceId = idsOf values instanceId ∪ idsOf more instanceId := by
      ext id
      simp only [idsOf, List.mem_append, Set.mem_union, Set.mem_ofPred_eq, or_and_right, exists_or]
    rw [parts, ← Set.union_assoc]
    exact (first.marks instanceId).union (second.marks instanceId)
  lastRuns job := by
    have mirrors : between.Mirrored job ↔ store.Mirrored job := by
      rw [MirrorStore.Mirrored, MirrorStore.Mirrored, first.tables]
    rw [second.lastRuns, first.lastRuns]
    simp only [List.map_append, List.mem_append, mirrors]
    by_cases mirrored : store.Mirrored job
    · by_cases late : job ∈ more.map (·.job)
      · simp only [late, mirrored, and_self, ↓reduceIte, or_true]
        cases found : after.latest job with
        | none => simp only [second.latest_none found, Option.map_none, Option.none_or, ite_self]
        | some row => rfl
      · rw [second.latest_other late]
        simp only [late, mirrored, and_true, or_false, ↓reduceIte]
    · simp only [mirrored, and_false, ↓reduceIte]
  tables := second.tables.trans first.tables

/-- **The same rows leave the same behind.** -/
theorem unique (first : Ingested store values after) (second : Ingested store more other)
    (same : ∀ value, value ∈ values ↔ value ∈ more) :
    after.jobHistory.rows.Perm other.jobHistory.rows ∧ after.syncState = other.syncState ∧
      after.lastRun = other.lastRun ∧ after.tables = other.tables := by
  have rows : ∀ row, row ∈ after.jobHistory ↔ row ∈ other.jobHistory := fun row => by
    rw [first.history, second.history, same]
  refine ⟨?_, funext fun instanceId => ?_, funext fun job => ?_, first.tables.trans second.tables.symm⟩
  · exact (List.perm_ext_iff_of_nodup after.jobHistory.unique.of_map other.jobHistory.unique.of_map).mpr rows
  · refine (first.marks instanceId).unique ?_
    have ids : idsOf values instanceId = idsOf more instanceId := by
      simp only [idsOf, same]
    exact ids ▸ second.marks instanceId
  · have latest : after.latest job = other.latest job := latest_congr fun row => by
      rw [mem_outcomes, mem_outcomes, rows]
    have jobs : job ∈ values.map (·.job) ↔ job ∈ more.map (·.job) := by
      simp only [List.mem_map, same]
    rw [first.lastRuns, second.lastRuns, latest]
    simp only [jobs]

end Ingested

/-! ## Batches -/

theorem instanceId_of_historyValue {instanceId : JsString} {rows : List HistoryRow} {value : JobHistoryRow}
    (member : value ∈ historyValues instanceId rows) : value.instanceId = instanceId := by
  obtain ⟨row, -, bound⟩ := List.mem_filterMap.mp member
  cases time : fromTimestamp row.runDatetime with
  | none => simp [historyValue, time] at bound
  | some found =>
    cases found with
    | none => simp [historyValue, time, Except.toOption] at bound
    | some runDatetime =>
      simp only [historyValue, time, Option.map_some, Option.bind_some, Except.toOption, Option.some.injEq] at bound
      exact bound ▸ rfl

/-- The greatest id of a batch that has rows. -/
theorem batchMax_spec {values : List JobHistoryRow} (some : values ≠ []) :
    IsGreatest {id | ∃ value ∈ values, value.sqlInstanceId = id} (batchMax values) := by
  have found : (values.map (·.sqlInstanceId)).max? = Option.some (batchMax values) := by
    cases greatest : (values.map (·.sqlInstanceId)).max? with
    | none => exact absurd (List.map_eq_nil_iff.mp (List.max?_eq_none_iff.mp greatest)) some
    | some mark => rw [batchMax, greatest, Option.getD_some]
  obtain ⟨member, above⟩ := List.max?_eq_some_iff.mp found
  refine ⟨List.mem_map.mp member, ?_⟩
  rintro id ⟨value, inside, rfl⟩
  exact above _ (List.mem_map_of_mem inside)

/-- The mark of an instance after a batch. -/
theorem isMark_raised {values : List JobHistoryRow} {instanceId : JsString} (some : values ≠ [])
    (home : ∀ value ∈ values, value.instanceId = instanceId) (current : Option Int) :
    IsMark ({id | current = Option.some id} ∪ idsOf values instanceId)
      (Option.some (MirrorStore.raised current (batchMax values))) := by
  obtain ⟨⟨top, inside, isTop⟩, above⟩ := batchMax_spec some
  have member : batchMax values ∈ idsOf values instanceId := ⟨top, inside, home top inside, isTop⟩
  have bound : ∀ id ∈ idsOf values instanceId, id ≤ batchMax values := fun id ⟨value, there, _, same⟩ =>
    above ⟨value, there, same⟩
  refine ⟨fun greatest same => ?_, nofun⟩
  cases same
  cases current with
  | none =>
    refine ⟨.inr member, ?_⟩
    rintro id (none | new)
    · cases none
    · exact bound id new
  | some mark =>
    refine ⟨?_, ?_⟩
    · rcases max_choice mark (batchMax values) with isMark | isBatch
      · exact .inl (congrArg Option.some isMark.symm)
      · exact .inr (by rw [MirrorStore.raised, Option.elim_some, isBatch]; exact member)
    · rintro id (same | new)
      · cases same
        exact le_max_left _ _
      · exact (bound id new).trans (le_max_right _ _)

/-- The jobs of a batch. -/
theorem mem_map_job {values : List JobHistoryRow} {instanceId : JsString} (job : JobKey)
    (home : ∀ value ∈ values, value.instanceId = instanceId) : job ∈ values.map (·.job) ↔
      job.instanceId = instanceId ∧ job.jobUuid ∈ values.map (·.jobUuid) := by
  constructor
  · intro member
    obtain ⟨value, inside, rfl⟩ := List.mem_map.mp member
    exact ⟨home value inside, List.mem_map.mpr ⟨value, inside, rfl⟩⟩
  · rintro ⟨place, member⟩
    obtain ⟨value, inside, uuid⟩ := List.mem_map.mp member
    refine List.mem_map.mpr ⟨value, inside, ?_⟩
    rw [JobHistoryRow.job, home value inside, uuid, ← place]

/-- A batch that has rows ingests them. -/
theorem ingested_ingest {store : MirrorStore} {instanceId : JsString} {values : List JobHistoryRow}
    (some : values ≠ []) (home : ∀ value ∈ values, value.instanceId = instanceId)
    (determined : Determined values) : Ingested store values (store.ingest instanceId values) where
  history row := by
    rw [MirrorStore.ingest_jobHistory, KeyedTable.mem_insertNew, KeyedTable.mem_inserted determined]
  marks other := by
    rw [MirrorStore.ingest_syncState]
    by_cases same : other = instanceId
    · subst same
      rw [Function.update_self]
      exact isMark_raised some home _
    · have bare : idsOf values other = ∅ := Set.eq_empty_iff_forall_notMem.mpr fun id ⟨value, member, place, _⟩ =>
        same (place.symm.trans (home value member))
      rw [Function.update_of_ne same, bare]
      simpa [idsOf] using (Ingested.refl store).marks other
  lastRuns job := by
    have jobs := mem_map_job job home
    have latest : (store.ingest instanceId values).latest job = (store.insertHistory values).latest job :=
      latest_congr fun row => by
        rw [mem_outcomes, mem_outcomes, MirrorStore.ingest_jobHistory]
        rfl
    rw [MirrorStore.ingest_lastRun, latest]
    simp only [jobs]
    by_cases there : job.instanceId = instanceId ∧ job.jobUuid ∈ values.map (·.jobUuid)
    · simp only [there, and_self, true_and, ↓reduceIte, MirrorStore.refreshed]
      rfl
    · rw [if_neg there, if_neg fun both => there both.1]
  tables := MirrorStore.ingest_tables _ _

/-- What one batch does. -/
theorem batch_ingested (store : MirrorStore) {batch : HistoryBatch} (dated : WellDated batch.rows)
    (determined : Determined (historyValues batch.instanceId batch.rows)) : ∃ result between,
    perform HistoryCall.respond store (ingestHistory batch.instanceId batch.rows) = (.ok result, between) ∧
      Ingested store (historyValues batch.instanceId batch.rows) between ∧
      result.newRuns = ((store.jobHistory.insertNew (historyValues batch.instanceId batch.rows)).2.filter fun row =>
        row.stepId = 0).map (·.run) := by
  obtain ⟨result, performed, new⟩ := perform_ingestHistory store batch.instanceId dated
  refine ⟨result, _, performed, ?_, new⟩
  split
  · rename_i bare
    rw [bare]
    exact .refl store
  · rename_i some
    exact ingested_ingest some (fun value => instanceId_of_historyValue) determined

theorem storedContents_cons (batch : HistoryBatch) (rest : List HistoryBatch) :
    storedContents (batch :: rest) = historyValues batch.instanceId batch.rows ++ storedContents rest := rfl

theorem Determined.left {values more : List JobHistoryRow} (determined : Determined (values ++ more)) :
    Determined values := fun a first b second =>
  determined a (List.mem_append_left _ first) b (List.mem_append_left _ second)

theorem Determined.right {values more : List JobHistoryRow} (determined : Determined (values ++ more)) :
    Determined more := fun a first b second =>
  determined a (List.mem_append_right _ first) b (List.mem_append_right _ second)

/-- What a run of batches does. -/
theorem ingested_deliver (store : MirrorStore) {batches : List HistoryBatch}
    (dated : ∀ batch ∈ batches, WellDated batch.rows) (determined : Determined (storedContents batches)) :
    Ingested store (storedContents batches) (store.deliver batches).1 := by
  induction batches generalizing store with
  | nil => exact .refl store
  | cons batch rest ih =>
    rw [storedContents_cons] at determined ⊢
    obtain ⟨result, between, performed, first, -⟩ :=
      batch_ingested store (dated batch List.mem_cons_self) determined.left
    have second := ih between (fun other member => dated other (List.mem_cons_of_mem _ member))
      determined.right
    have step : (store.deliver (batch :: rest)).1 = (between.deliver rest).1 := by
      simp only [MirrorStore.deliver, performed]
    rw [step]
    exact first.trans second determined

/-! ## Reports -/

/-- The report tells of the row with this key. -/
def HistoryReport.Of (key : HistoryKey) (report : HistoryReport) : Prop :=
  report.instanceId = key.1 ∧ ∃ run ∈ report.newRuns, run.sqlInstanceId = key.2

instance (key : HistoryKey) (report : HistoryReport) : Decidable (report.Of key) :=
  inferInstanceAs (Decidable (_ ∧ _))

/-- A row with this key is the outcome of a job. -/
def IsOutcome (values : List JobHistoryRow) (key : HistoryKey) : Prop :=
  ∃ value ∈ values, value.key = key ∧ value.stepId = 0

/-- A batch reports the outcomes it brings whose keys were free. -/
theorem of_newRuns {store : MirrorStore} {batch : HistoryBatch} (key : HistoryKey) {newRuns : List IngestedRun}
    (determined : Determined (historyValues batch.instanceId batch.rows))
    (new : newRuns = ((store.jobHistory.insertNew (historyValues batch.instanceId batch.rows)).2.filter fun row =>
      row.stepId = 0).map (·.run)) :
    (HistoryReport.mk batch.instanceId newRuns).Of key ↔
      IsOutcome (historyValues batch.instanceId batch.rows) key ∧ ¬ store.jobHistory.Holds key := by
  subst new
  simp only [HistoryReport.Of, List.mem_map, List.mem_filter, KeyedTable.mem_inserted determined,
    decide_eq_true_eq]
  constructor
  · rintro ⟨place, run, ⟨value, ⟨⟨member, free⟩, isOutcome⟩, rfl⟩, same⟩
    have isKey : value.key = key := Prod.ext ((instanceId_of_historyValue member).trans place) same
    exact ⟨⟨value, member, isKey, isOutcome⟩, isKey ▸ free⟩
  · rintro ⟨⟨value, member, rfl, isOutcome⟩, free⟩
    exact ⟨(instanceId_of_historyValue member).symm, value.run, ⟨value, ⟨⟨member, free⟩, isOutcome⟩, rfl⟩, rfl⟩

/-- Each outcome whose key was free is reported by one batch, and nothing else is
by any. -/
theorem countP_reports (store : MirrorStore) {batches : List HistoryBatch} (key : HistoryKey)
    (dated : ∀ batch ∈ batches, WellDated batch.rows) (determined : Determined (storedContents batches))
    [Decidable (IsOutcome (storedContents batches) key ∧ ¬ store.jobHistory.Holds key)] :
    (store.deliver batches).2.countP (fun report => report.Of key) =
      if IsOutcome (storedContents batches) key ∧ ¬ store.jobHistory.Holds key then 1 else 0 := by
  classical
  induction batches generalizing store with
  | nil =>
    rw [if_neg fun ⟨⟨_, member, _⟩, _⟩ => nomatch member]
    rfl
  | cons batch rest ih =>
    have first := dated batch List.mem_cons_self
    rw [storedContents_cons] at determined
    obtain ⟨result, between, performed, ingested, new⟩ :=
      batch_ingested store first determined.left
    have later := ih between (fun other member => dated other (List.mem_cons_of_mem _ member))
      determined.right
    have step : (store.deliver (batch :: rest)).2 =
        ⟨batch.instanceId, result.newRuns⟩ :: (between.deliver rest).2 := by
      simp only [MirrorStore.deliver, performed]
    have here := of_newRuns key determined.left new
    have both : IsOutcome (storedContents (batch :: rest)) key ↔
        IsOutcome (historyValues batch.instanceId batch.rows) key ∨ IsOutcome (storedContents rest) key := by
      simp only [IsOutcome, storedContents_cons, List.mem_append, or_and_right, exists_or]
    rw [step, List.countP_cons, later]
    by_cases before : store.jobHistory.Holds key
    · have still : between.jobHistory.Holds key := ingested.holds.mpr (.inl before)
      simp [here, before, still]
    · by_cases brought : key ∈ (historyValues batch.instanceId batch.rows).map JobHistoryRow.key
      · have held : between.jobHistory.Holds key := ingested.holds.mpr (.inr brought)
        have covered : IsOutcome (storedContents rest) key →
            IsOutcome (historyValues batch.instanceId batch.rows) key := by
          rintro ⟨value, member, isKey, isOutcome⟩
          obtain ⟨other, there, also⟩ := List.mem_map.mp brought
          have one := determined other (List.mem_append_left _ there) value (List.mem_append_right _ member)
            (also.trans isKey.symm)
          exact ⟨value, one ▸ there, isKey, isOutcome⟩
        have same : IsOutcome (storedContents (batch :: rest)) key ↔
            IsOutcome (historyValues batch.instanceId batch.rows) key :=
          both.trans ⟨fun either => either.elim id covered, .inl⟩
        simp [here, before, held, same]
      · have free : ¬ between.jobHistory.Holds key := fun held => (ingested.holds.mp held).elim before brought
        have absent : ¬ IsOutcome (historyValues batch.instanceId batch.rows) key :=
          fun ⟨value, member, isKey, _⟩ => brought (List.mem_map.mpr ⟨value, member, isKey⟩)
        simp [here, before, free, both, absent]

/-! ## Any delivery of some rows -/

/-- The batches bring these rows and no others, in any order and any number of
times. -/
def Splits (rows : List (JsString × HistoryRow)) (batches : List HistoryBatch) : Prop :=
  ∀ entry, entry ∈ contents batches ↔ entry ∈ rows

/-- The row has a run time. -/
def HistoryRow.HasRunTime (row : HistoryRow) : Prop := row.runDatetime.isSome = true

instance (row : HistoryRow) : Decidable row.HasRunTime := inferInstanceAs (Decidable (_ = true))

theorem mem_contents {batches : List HistoryBatch} {instanceId : JsString} {row : HistoryRow} :
    (instanceId, row) ∈ contents batches ↔ ∃ batch ∈ batches, batch.instanceId = instanceId ∧ row ∈ batch.rows := by
  simp only [contents, List.mem_flatMap, List.mem_map, Prod.mk.injEq]
  constructor
  · rintro ⟨batch, member, other, inside, rfl, rfl⟩
    exact ⟨batch, member, rfl, inside⟩
  · rintro ⟨batch, member, rfl, inside⟩
    exact ⟨batch, member, row, inside, rfl, rfl⟩

/-- What is stored are the rows that can be. -/
theorem mem_storedContents {batches : List HistoryBatch} {value : JobHistoryRow} :
    value ∈ storedContents batches ↔
      ∃ entry ∈ contents batches, historyValue entry.1 entry.2 = some (.ok value) := by
  simp only [storedContents, List.mem_flatMap, historyValues, List.mem_filterMap, Prod.exists, mem_contents,
    Option.bind_eq_some_iff]
  constructor
  · rintro ⟨batch, member, row, inside, bound, isBound, isValue⟩
    cases bound with
    | error message => cases isValue
    | ok found =>
      cases isValue
      exact ⟨batch.instanceId, row, ⟨batch, member, rfl, inside⟩, isBound⟩
  · rintro ⟨_, row, ⟨batch, member, rfl, inside⟩, isBound⟩
    exact ⟨batch, member, row, inside, _, isBound, rfl⟩

/-- The stored form of a row keeps its id and its step, and there is one exactly if
the row has a run time. -/
theorem historyValue_spec (instanceId : JsString) {row : HistoryRow}
    (dated : fromTimestamp row.runDatetime ≠ some none) :
    (∀ value, historyValue instanceId row = some (.ok value) →
      value.key = (instanceId, row.instanceId) ∧ value.stepId = row.stepId) ∧
    (row.HasRunTime ↔ ∃ value, historyValue instanceId row = some (.ok value)) := by
  have timed : row.HasRunTime ↔ (fromTimestamp row.runDatetime).isSome = true := by
    rw [HistoryRow.HasRunTime, fromTimestamp, Option.isSome_map]
  rw [timed]
  cases time : fromTimestamp row.runDatetime with
  | none => simp [historyValue, time]
  | some found =>
    cases found with
    | none => exact absurd time dated
    | some runDatetime =>
      simp only [historyValue, time, Option.map_some, Option.some.injEq, Except.ok.injEq]
      refine ⟨fun value same => ?_, fun _ => ⟨_, rfl⟩, fun _ => rfl⟩
      subst same
      exact ⟨rfl, rfl⟩

/-- The id of a row on its instance determines it. -/
def RowsDetermined (rows : List (JsString × HistoryRow)) : Prop :=
  ∀ a ∈ rows, ∀ b ∈ rows, a.1 = b.1 → a.2.instanceId = b.2.instanceId → a = b

section Splits
variable {rows : List (JsString × HistoryRow)} {batches : List HistoryBatch}

theorem Splits.dated (splits : Splits rows batches) (dated : WellDated (rows.map (·.2))) :
    ∀ batch ∈ batches, WellDated batch.rows := by
  intro batch member row inside
  have there := (splits (batch.instanceId, row)).mp (mem_contents.mpr ⟨batch, member, rfl, inside⟩)
  exact dated row (List.mem_map.mpr ⟨_, there, rfl⟩)

theorem Splits.mem_stored (splits : Splits rows batches) {value : JobHistoryRow} :
    value ∈ storedContents batches ↔ ∃ entry ∈ rows, historyValue entry.1 entry.2 = some (.ok value) := by
  simp only [mem_storedContents, splits _]

theorem RowsDetermined.eq_of_key (determined : RowsDetermined rows) (dated : WellDated (rows.map (·.2)))
    {one two : JsString × HistoryRow} {a b : JobHistoryRow} (member : one ∈ rows) (there : two ∈ rows)
    (isOne : historyValue one.1 one.2 = some (.ok a)) (isTwo : historyValue two.1 two.2 = some (.ok b))
    (same : a.key = b.key) : one = two := by
  have first := (historyValue_spec _ (dated one.2 (List.mem_map_of_mem member))).1 a isOne
  have second := (historyValue_spec _ (dated two.2 (List.mem_map_of_mem there))).1 b isTwo
  obtain ⟨place, id⟩ := Prod.mk.inj (first.1.symm.trans (same.trans second.1))
  exact determined one member two there place id

theorem Splits.determined (splits : Splits rows batches) (determined : RowsDetermined rows)
    (dated : WellDated (rows.map (·.2))) : Determined (storedContents batches) := by
  intro a first b second same
  obtain ⟨one, member, isOne⟩ := splits.mem_stored.mp first
  obtain ⟨two, there, isTwo⟩ := splits.mem_stored.mp second
  have equal := determined.eq_of_key dated member there isOne isTwo same
  subst equal
  exact Except.ok.inj (Option.some.inj (isOne.symm.trans isTwo))

/-- The ids that reach the mark of an instance. -/
theorem Splits.idsOf (splits : Splits rows batches) (dated : WellDated (rows.map (·.2))) (instanceId : JsString) :
    RemoteSqlAgent.idsOf (storedContents batches) instanceId =
      {id | ∃ row, (instanceId, row) ∈ rows ∧ row.HasRunTime ∧ row.instanceId = id} := by
  ext id
  constructor
  · rintro ⟨value, inside, rfl, rfl⟩
    obtain ⟨entry, there, isValue⟩ := splits.mem_stored.mp inside
    have spec := historyValue_spec entry.1 (dated entry.2 (List.mem_map_of_mem there))
    obtain ⟨place, same⟩ := Prod.mk.inj (spec.1 value isValue).1
    rw [place, same]
    exact ⟨entry.2, there, spec.2.mpr ⟨value, isValue⟩, rfl⟩
  · rintro ⟨row, there, timed, rfl⟩
    have spec := historyValue_spec instanceId (dated row (List.mem_map.mpr ⟨_, there, rfl⟩))
    obtain ⟨value, isValue⟩ := spec.2.mp timed
    obtain ⟨place, same⟩ := Prod.mk.inj (spec.1 value isValue).1
    exact ⟨value, splits.mem_stored.mpr ⟨_, there, isValue⟩, place, same⟩

/-- Which rows are outcomes. -/
theorem Splits.isOutcome (splits : Splits rows batches) (determined : RowsDetermined rows)
    (dated : WellDated (rows.map (·.2))) {entry : JsString × HistoryRow} (member : entry ∈ rows) :
    IsOutcome (storedContents batches) (entry.1, entry.2.instanceId) ↔
      entry.2.stepId = 0 ∧ entry.2.HasRunTime := by
  have spec := historyValue_spec entry.1 (dated entry.2 (List.mem_map_of_mem member))
  constructor
  · rintro ⟨value, inside, isKey, isStep⟩
    obtain ⟨other, there, isValue⟩ := splits.mem_stored.mp inside
    have own := historyValue_spec other.1 (dated other.2 (List.mem_map_of_mem there))
    obtain ⟨key, step⟩ := own.1 value isValue
    obtain ⟨place, id⟩ := Prod.mk.inj (key.symm.trans isKey)
    have equal := determined other there entry member place id
    subst equal
    exact ⟨step.symm.trans isStep, own.2.mpr ⟨value, isValue⟩⟩
  · rintro ⟨isStep, timed⟩
    obtain ⟨value, isValue⟩ := spec.2.mp timed
    obtain ⟨key, step⟩ := spec.1 value isValue
    exact ⟨value, splits.mem_stored.mpr ⟨entry, member, isValue⟩, key, step.trans isStep⟩

end Splits

/-- An outcome of a job, or a step of it, one minute after another. -/
def sampleRun (id stepId runStatus : Int) : HistoryRow where
  instanceId := id
  jobUuid := js "j1"
  stepId := stepId
  stepName := js "(Job outcome)"
  runStatus := runStatus
  runDatetime := some { seconds := 1700000000 + 60 * id, nanos := 0 }
  runDurationSeconds := 5
  message := []
  retriesAttempted := 0
  server := js "HOST1"
  sqlSeverity := 0
  sqlMessageId := 0

def sampleBatch (rows : List HistoryRow) : HistoryBatch := ⟨js "i1", rows⟩

theorem sampleRun_dated : WellDated [sampleRun 1 1 0, sampleRun 2 0 0, sampleRun 3 0 1] := by
  intro row member
  simp only [List.mem_cons, List.not_mem_nil, or_false] at member
  rcases member with rfl | rfl | rfl <;> intro invalid <;> cases invalid

end RemoteSqlAgent
