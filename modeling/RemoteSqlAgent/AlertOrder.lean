import RemoteSqlAgent.FailureAlerts

/-! Alerts and the order of history. A recovery is told from what is stored when the
success arrives and never looked at again, so it depends on which failures came
before. Failures and successes do not, unless an alert that cannot be queued stops
the rest of its batch. -/
namespace RemoteSqlAgent
open Js CallProgram

namespace AlertStore

/-- A batch is handled, and nothing goes wrong. -/
def take (table : CaseTable) (store : AlertStore) (batch : HistoryBatch) : AlertStore :=
  store.handleHistory table batch.instanceId batch.rows []

/-- Batches are handled one after the other. -/
def deliver (table : CaseTable) (store : AlertStore) (batches : List HistoryBatch) : AlertStore :=
  batches.foldl (take table) store

/-- The keys of jobs are uuids. -/
def Keyed (store : AlertStore) : Prop :=
  ∀ job, store.mirror.Mirrored job → columnTakes job.instanceId = true ∧ columnTakes job.jobUuid = true

end AlertStore

/-- Some rows as they are stored. -/
def valuesOf (rows : List (JsString × HistoryRow)) : List JobHistoryRow :=
  rows.filterMap fun entry => (historyValue entry.1 entry.2).bind Except.toOption

/-- Outcomes of mirrored jobs. -/
structure Outcomes (start : AlertStore) (rows : List (JsString × HistoryRow)) : Prop where
  determined : RowsDetermined rows
  dated : WellDated (rows.map (·.2))
  outcome : ∀ entry ∈ rows, entry.2.stepId = 0
  mirrored : ∀ entry ∈ rows, start.mirror.Mirrored ⟨entry.1, entry.2.jobUuid⟩

namespace JobHistoryRow

/-- There is something to tell of the run. -/
def Ended (row : JobHistoryRow) : Prop := row.runStatus = 0 ∨ row.runStatus = 1

instance (row : JobHistoryRow) : Decidable row.Ended := inferInstanceAs (Decidable (_ ∨ _))

/-- What the run itself tells, whatever came before it. -/
def ownKind (row : JobHistoryRow) : NotificationEventKind := if row.runStatus = 0 then .job_failed else .job_succeeded

/-- The event of a kind that tells of the run. -/
def told (row : JobHistoryRow) (kind : NotificationEventKind) : JsString := occurrence kind row.instanceId row.run

end JobHistoryRow

/-- The channels that rules name for the run itself are there. -/
def ReachesChannels (table : CaseTable) (store : AlertStore) (row : JobHistoryRow) : Prop :=
  ∀ job ∈ store.jobContext row.instanceId row.jobUuid,
    store.Wired table (runEvent row.ownKind row.instanceId job row.run [])

instance (table : CaseTable) (store : AlertStore) (row : JobHistoryRow) : Decidable (ReachesChannels table store row) :=
  inferInstanceAs (Decidable (∀ job ∈ store.jobContext row.instanceId row.jobUuid, _))

/-- A success with a failure of the job before it. -/
def Recovers (rows : List JobHistoryRow) : Prop :=
  ∃ failed ∈ rows, ∃ succeeded ∈ rows, failed.job = succeeded.job ∧ failed.runStatus = 0 ∧ succeeded.runStatus = 1 ∧
    failed.sqlInstanceId < succeeded.sqlInstanceId

instance (rows : List JobHistoryRow) : Decidable (Recovers rows) :=
  inferInstanceAs (Decidable (∃ failed ∈ rows, ∃ succeeded ∈ rows, _))

/-- An alert that cannot be queued, with another one of its instance that it can stop. -/
def Stops (table : CaseTable) (store : AlertStore) (rows : List JobHistoryRow) : Prop :=
  ∃ dead ∈ rows, ∃ other ∈ rows, dead ≠ other ∧ dead.instanceId = other.instanceId ∧ dead.Ended ∧ other.Ended ∧
    ¬ ReachesChannels table store dead

instance (table : CaseTable) (store : AlertStore) (rows : List JobHistoryRow) : Decidable (Stops table store rows) :=
  inferInstanceAs (Decidable (∃ dead ∈ rows, ∃ other ∈ rows, _))

/-! ## The runs of a batch -/

section Runs
variable {table : CaseTable} {store : AlertStore} {row : JobHistoryRow}

/-- The first event of a run is its own. A recovery may follow. -/
theorem runEvents_ended (ended : row.Ended) {job : JobContext}
    (context : store.jobContext row.instanceId row.jobUuid = some job) : ∃ particular,
    store.runEvents row.instanceId row.run = runEvent row.ownKind row.instanceId job row.run particular ::
      if row.runStatus = 1 ∧ (store.failures row.job row.sqlInstanceId).previousFailures > 0 then
        [recoveredEvent row.instanceId job row.run (store.failures row.job row.sqlInstanceId)]
      else [] := by
  have found : store.jobContext row.instanceId row.run.jobUuid = some job := context
  rw [AlertStore.runEvents, found, Option.elim_some, AlertStore.eventsOf, JobHistoryRow.ownKind]
  rcases ended with failed | succeeded
  · have same : row.run.runStatus = 0 := failed
    rw [if_pos same, if_pos failed, if_neg fun both => by omega]
    exact ⟨_, rfl⟩
  · have other : row.run.runStatus ≠ 0 := fun same => by
      have status : row.runStatus = 0 := same
      omega
    have apart : row.runStatus ≠ 0 := other
    rw [if_neg other, if_neg apart]
    change ∃ _, (if (store.failures row.job row.sqlInstanceId).previousFailures > 0 then
      [succeededEvent row.instanceId job row.run,
        recoveredEvent row.instanceId job row.run (store.failures row.job row.sqlInstanceId)]
      else [succeededEvent row.instanceId job row.run]) = _
    refine ⟨[], ?_⟩
    by_cases recovered : (store.failures row.job row.sqlInstanceId).previousFailures > 0
    · simp only [recovered, succeeded, and_self, ↓reduceIte]
      rfl
    · simp only [recovered, succeeded, and_false, ↓reduceIte]
      rfl

theorem wired_own {job : JobContext} (context : store.jobContext row.instanceId row.jobUuid = some job)
    {particular : List (JsString × JsonValue)} :
    store.Wired table (runEvent row.ownKind row.instanceId job row.run particular) ↔
      ReachesChannels table store row := by
  rw [wired_runEvent]
  constructor
  · intro wired other found
    rw [context] at found
    exact Option.some.inj found ▸ wired
  · exact fun reaches => reaches job context

/-- A failure that counts as one before a run is one that is stored, of an earlier run. -/
theorem previousFailures_pos {job : JobKey} {sqlInstanceId : Int}
    (failed : (store.failures job sqlInstanceId).previousFailures > 0) :
    ∃ row ∈ store.mirror.jobHistory, row.job = job ∧ row.runStatus = 0 ∧ row.sqlInstanceId < sqlInstanceId := by
  have sorted : (store.upTo job sqlInstanceId fun row => row.stepId = 0).Pairwise fun a b =>
      b.sqlInstanceId - a.sqlInstanceId ≤ 0 :=
    sortBy_sorted (consistent_descending _) _
  have inside : ∀ row ∈ store.upTo job sqlInstanceId fun row => row.stepId = 0,
      row ∈ store.mirror.jobHistory ∧ row.job = job ∧ row.sqlInstanceId ≤ sqlInstanceId := by
    intro row member
    obtain ⟨there, kept⟩ := List.mem_filter.mp (mem_sortBy.mp member)
    have kept := of_decide_eq_true kept
    exact ⟨there, kept.1, kept.2.1⟩
  have distinct : (store.upTo job sqlInstanceId fun row => row.stepId = 0).Nodup :=
    (sortBy_perm _ _).nodup_iff.mpr ((List.Nodup.of_map _ store.mirror.jobHistory.unique).filter _)
  unfold AlertStore.failures at failed
  cases outcomes : store.upTo job sqlInstanceId fun row => row.stepId = 0 with
  | nil =>
    rw [outcomes] at failed
    cases failed
  | cons first rest =>
    rw [outcomes] at failed sorted inside distinct
    cases rest with
    | nil => cases failed
    | cons second rest =>
      have isFailed : second.runStatus = 0 := by
        by_contra other
        simp [other] at failed
      obtain ⟨there, isJob, -⟩ := inside second (by simp)
      obtain ⟨firstThere, firstJob, upTo⟩ := inside first (by simp)
      have below := (List.pairwise_cons.mp sorted).1 second (by simp)
      have apart : first.sqlInstanceId ≠ second.sqlInstanceId := by
        intro same
        have place := congrArg JobKey.instanceId (firstJob.trans isJob.symm)
        have equal := store.mirror.jobHistory.eq_of_key firstThere there (Prod.ext place same)
        exact (List.nodup_cons.mp distinct).1 (equal ▸ List.mem_cons_self)
      exact ⟨second, there, isJob, isFailed, by omega⟩

end Runs

/-! ## Recording -/

section Recording
variable {table : CaseTable} {store : AlertStore} {sends : NotificationChannel → RecordEventInput → Except Thrown Unit}

theorem holds_recordEvent (table : CaseTable) (sends : NotificationChannel → RecordEventInput → Except Thrown Unit)
    (store : AlertStore) (input : RecordEventInput) :
    (perform (AlertStore.respond sends) store (recordEvent table input)).2.events.Holds input.dedupeKey := by
  have rows := events_recordEvent table sends store input
  rw [KeyedTable.Holds, rows]
  by_cases known : store.events.Holds input.dedupeKey
  · rw [if_pos known, List.append_nil]
    exact known
  · rw [if_neg known, List.map_append]
    exact List.mem_append_right _ (List.mem_singleton_self _)

theorem holds_of_prefix {before after : AlertStore} (records : Raises before after) {key : JsString}
    (held : before.events.Holds key) : after.events.Holds key := by
  obtain ⟨event, member, same⟩ := KeyedTable.holds_iff.mp held
  exact KeyedTable.holds_iff.mpr ⟨event, records.events.subset member, same⟩

/-- The first event is recorded, whatever comes of it. -/
theorem holds_first (input : RecordEventInput) (rest : List RecordEventInput) :
    (store.recordAll table sends (input :: rest)).2.events.Holds input.dedupeKey := by
  have held := holds_recordEvent table sends store input
  cases run : perform (AlertStore.respond sends) store (recordEvent table input) with
  | mk ended after =>
    rw [run] at held
    cases ended with
    | ok isNew =>
      rw [recordAll_ok run]
      exact holds_of_prefix (records_recordAll table sends after rest) held
    | error thrown =>
      rw [recordAll_error run]
      exact held

theorem recordEvent_ok (sends : NotificationChannel → RecordEventInput → Except Thrown Unit) {input : RecordEventInput}
    (wired : store.Wired table input) :
    ∃ isNew, (perform (AlertStore.respond sends) store (recordEvent table input)).1 = .ok isNew := by
  by_cases known : store.events.Holds input.dedupeKey
  · exact ⟨false, congrArg Prod.fst (perform_recordEvent_known known)⟩
  · exact ⟨true, (recordEvent_wired sends known wired).1⟩

/-- The second event is recorded if the first one can be queued. -/
theorem holds_second {first : RecordEventInput} (wired : store.Wired table first) (second : RecordEventInput)
    (rest : List RecordEventInput) :
    (store.recordAll table sends (first :: second :: rest)).2.events.Holds second.dedupeKey := by
  obtain ⟨isNew, ok⟩ := recordEvent_ok sends wired
  cases run : perform (AlertStore.respond sends) store (recordEvent table first) with
  | mk ended after =>
    rw [run] at ok
    cases ok
    rw [recordAll_ok run]
    exact holds_first second rest

/-- If every channel is there, every event is recorded. -/
theorem holds_wired {inputs : List RecordEventInput} (wired : ∀ input ∈ inputs, store.Wired table input) :
    ∀ input ∈ inputs, (store.recordAll table sends inputs).2.events.Holds input.dedupeKey := by
  induction inputs generalizing store with
  | nil => exact fun _ member => absurd member List.not_mem_nil
  | cons first rest ih =>
    intro input member
    rcases List.mem_cons.mp member with rfl | later
    · exact holds_first input rest
    · obtain ⟨isNew, ok⟩ := recordEvent_ok sends (wired first List.mem_cons_self)
      have records := records_recordEvent table sends store first
      cases run : perform (AlertStore.respond sends) store (recordEvent table first) with
      | mk ended after =>
        rw [run] at ok records
        cases ok
        rw [recordAll_ok run]
        exact ih (fun other there => records.wired.mpr (wired other (List.mem_cons_of_mem _ there))) input later

/-- An event that cannot be queued is the last one. -/
theorem events_dead {input : RecordEventInput} {rest : List RecordEventInput}
    (fresh : ¬ store.events.Holds input.dedupeKey) (referenced : store.Referenced) (dead : ¬ store.Wired table input)
    {key : JsString} : (store.recordAll table sends (input :: rest)).2.events.Holds key ↔
      store.events.Holds key ∨ key = input.dedupeKey := by
  have rows := events_recordEvent table sends store input
  obtain ⟨thrown, ended⟩ := recordEvent_dead sends fresh referenced dead
  cases run : perform (AlertStore.respond sends) store (recordEvent table input) with
  | mk outcome after =>
    rw [run] at rows ended
    cases ended
    rw [recordAll_error run]
    change after.events.rows = _ at rows
    rw [if_neg fresh] at rows
    rw [KeyedTable.Holds, rows, List.map_append, List.mem_append]
    exact or_congr_right List.mem_singleton

end Recording

/-! ## A batch of outcomes -/

theorem historyValue_job {instanceId : JsString} {row : HistoryRow} {value : JobHistoryRow}
    (isValue : historyValue instanceId row = some (.ok value)) : value.job = ⟨instanceId, row.jobUuid⟩ := by
  cases time : fromTimestamp row.runDatetime with
  | none => simp [historyValue, time] at isValue
  | some found =>
    cases found with
    | none => simp [historyValue, time] at isValue
    | some runDatetime =>
      simp only [historyValue, time, Option.map_some, Option.some.injEq, Except.ok.injEq] at isValue
      subst isValue
      rfl

theorem mem_valuesOf {rows : List (JsString × HistoryRow)} {value : JobHistoryRow} :
    value ∈ valuesOf rows ↔ ∃ entry ∈ rows, historyValue entry.1 entry.2 = some (.ok value) := by
  simp only [valuesOf, List.mem_filterMap, Option.bind_eq_some_iff]
  constructor
  · rintro ⟨entry, member, bound, isBound, isValue⟩
    cases bound with
    | error message => cases isValue
    | ok found =>
      cases isValue
      exact ⟨entry, member, isBound⟩
  · rintro ⟨entry, member, isBound⟩
    exact ⟨entry, member, _, isBound, rfl⟩

/-- Rows that can be stored, of which events can be told. -/
structure Tellable (start : AlertStore) (values : List JobHistoryRow) : Prop where
  determined : Determined values
  outcome : ∀ row ∈ values, row.stepId = 0
  mirrored : ∀ row ∈ values, start.mirror.Mirrored row.job
  taken : ∀ row ∈ values, columnTakes row.instanceId = true ∧ columnTakes row.jobUuid = true

theorem Outcomes.tellable {start : AlertStore} {rows : List (JsString × HistoryRow)} (outcomes : Outcomes start rows)
    (keyed : start.Keyed) : Tellable start (valuesOf rows) := by
  have mirrored : ∀ row ∈ valuesOf rows, start.mirror.Mirrored row.job := by
    intro row member
    obtain ⟨entry, there, isValue⟩ := mem_valuesOf.mp member
    rw [historyValue_job isValue]
    exact outcomes.mirrored entry there
  refine ⟨fun a first b second same => ?_, fun row member => ?_, mirrored,
    fun row member => keyed row.job (mirrored row member)⟩
  · obtain ⟨one, there, isOne⟩ := mem_valuesOf.mp first
    obtain ⟨two, also, isTwo⟩ := mem_valuesOf.mp second
    have equal := outcomes.determined.eq_of_key outcomes.dated there also isOne isTwo same
    subst equal
    exact Except.ok.inj (Option.some.inj (isOne.symm.trans isTwo))
  · obtain ⟨entry, there, isValue⟩ := mem_valuesOf.mp member
    have spec := historyValue_spec entry.1 (outcomes.dated entry.2 (List.mem_map_of_mem there))
    exact (spec.1 row isValue).2.trans (outcomes.outcome entry there)

/-- A batch of some of the rows. -/
structure Brought (values : List JobHistoryRow) (batch : HistoryBatch) : Prop where
  dated : WellDated batch.rows
  inside : ∀ row ∈ historyValues batch.instanceId batch.rows, row ∈ values

/-- A store that took batches of some of the rows. -/
structure Underway (start : AlertStore) (values : List JobHistoryRow) (now : AlertStore) : Prop where
  settled : now = { start with mirror := now.mirror, events := now.events, deliveries := now.deliveries }
  tables : now.mirror.tables = start.mirror.tables
  inside : ∀ row ∈ now.mirror.jobHistory, row ∈ values

/-- The runs of a batch that are told. -/
def newEnded (now : AlertStore) (batch : HistoryBatch) : List JobHistoryRow :=
  (now.mirror.jobHistory.insertNew (historyValues batch.instanceId batch.rows)).2.filter fun row =>
    row.stepId = 0 ∧ row.Ended

/-- The events of a batch. -/
def batchEvents (now : AlertStore) (batch : HistoryBatch) : List RecordEventInput :=
  (newEnded now batch).flatMap fun row => (now.ingested batch.instanceId batch.rows).runEvents row.instanceId row.run

section Batch
variable {table : CaseTable} {start now : AlertStore} {values : List JobHistoryRow} {batch : HistoryBatch}
variable {row : JobHistoryRow} {kind : NotificationEventKind}

theorem Tellable.colonFree (tellable : Tellable start values) (member : row ∈ values) :
    ColonFree row.instanceId ∧ ColonFree row.jobUuid :=
  ⟨colonFree_of_columnTakes (tellable.taken row member).1, colonFree_of_columnTakes (tellable.taken row member).2⟩

/-- An event tells which row it is of. -/
theorem Tellable.told_inj (tellable : Tellable start values) {other : JobHistoryRow} {another : NotificationEventKind}
    (member : row ∈ values) (there : other ∈ values) (same : row.told kind = other.told another) :
    kind = another ∧ row = other := by
  obtain ⟨place, uuid⟩ := tellable.colonFree member
  obtain ⟨otherPlace, otherUuid⟩ := tellable.colonFree there
  obtain ⟨kinds, places, -, ids⟩ := occurrence_inj place otherPlace uuid otherUuid same
  exact ⟨kinds, tellable.determined row member other there (Prod.ext places ids)⟩

theorem take_eq (tellable : Tellable start values) (brought : Brought values batch) :
    now.take table batch = ((now.ingested batch.instanceId batch.rows).recordAll table (fun _ _ => .ok ())
      (batchEvents now batch)).2 := by
  have accepted : Accepted (historyValues batch.instanceId batch.rows) := List.all_eq_true.mpr fun row member => by
    obtain ⟨place, uuid⟩ := tellable.taken row (brought.inside row member)
    rw [place, uuid]
    rfl
  have same : outcomesOf (newRuns now batch.instanceId batch.rows) = (newEnded now batch).map (·.run) := by
    rw [outcomesOf, newRuns, newEnded, List.filter_map, List.filter_filter]
    refine congrArg _ (List.filter_congr fun row _ => ?_)
    rw [Bool.decide_and, Bool.and_comm]
    rfl
  rw [AlertStore.take, handleHistory_dated brought.dated accepted, same, List.flatMap_map, batchEvents]
  refine congrArg (fun inputs => (AlertStore.recordAll table _ _ inputs).2) (List.flatMap_congr fun row member => ?_)
  have inserted := (List.mem_filter.mp member).1
  rw [instanceId_of_historyValue (KeyedTable.mem_of_inserted inserted).1]

theorem take_jobHistory (tellable : Tellable start values) (brought : Brought values batch) :
    (now.take table batch).mirror.jobHistory =
      (now.mirror.jobHistory.insertNew (historyValues batch.instanceId batch.rows)).1 := by
  rw [take_eq tellable brought, (records_recordAll table _ _ _).mirror, ingested_jobHistory]

/-- What a batch brings that is told was not there. -/
theorem mem_newEnded (brought : Brought values batch) (member : row ∈ newEnded now batch) :
    row ∈ values ∧ row.Ended ∧ row.instanceId = batch.instanceId ∧ ¬ now.mirror.jobHistory.Holds row.key := by
  obtain ⟨inserted, isOutcome⟩ := List.mem_filter.mp member
  obtain ⟨offered, free⟩ := KeyedTable.mem_of_inserted inserted
  exact ⟨brought.inside row offered, (of_decide_eq_true isOutcome).2, instanceId_of_historyValue offered, free⟩

namespace Underway

theorem refl (blank : start.Blank) : Underway start values start :=
  ⟨rfl, rfl, fun row member => absurd member (blank.no_row row)⟩

theorem reaches (underway : Underway start values now) :
    ReachesChannels table now row ↔ ReachesChannels table start row := by
  have context : now.jobContext row.instanceId row.jobUuid = start.jobContext row.instanceId row.jobUuid := by
    unfold AlertStore.jobContext
    rw [underway.tables, underway.settled]
  have wired : ∀ input, now.Wired table input ↔ start.Wired table input := by
    intro input
    rw [underway.settled]
    exact Iff.rfl
  unfold ReachesChannels
  rw [context]
  exact forall₂_congr fun _ _ => wired _

theorem job (underway : Underway start values now) (tellable : Tellable start values) (member : row ∈ values) :
    ∃ job, now.jobContext row.instanceId row.jobUuid = some job := by
  have mirrored : (now.mirror.tables.jobs row.job).isSome = true := underway.tables ▸ tellable.mirrored row member
  exact Option.isSome_iff_exists.mp (by rw [AlertStore.jobContext, Option.isSome_map]; exact mirrored)

/-- A batch leaves the rest as it is. -/
theorem take (table : CaseTable) (underway : Underway start values now) (tellable : Tellable start values)
    (brought : Brought values batch) :
    Underway start values (now.take table batch) := by
  have records := records_recordAll table (fun _ _ => .ok ()) (now.ingested batch.instanceId batch.rows)
    (batchEvents now batch)
  refine ⟨?_, ?_, fun row member => ?_⟩
  · rw [take_eq tellable brought, records.settled, AlertStore.ingested, underway.settled]
  · rw [take_eq tellable brought, records.mirror, ingested_tables, underway.tables]
  · rw [take_jobHistory tellable brought] at member
    rcases KeyedTable.mem_insertNew.mp member with before | inserted
    · exact underway.inside row before
    · exact brought.inside row (KeyedTable.mem_of_inserted inserted).1

/-- A store that took the rows of a batch. -/
theorem ingested (underway : Underway start values now) (brought : Brought values batch) :
    Underway start values (now.ingested batch.instanceId batch.rows) := by
  refine ⟨?_, (ingested_tables _ _ _).trans underway.tables, fun row member => ?_⟩
  · rw [AlertStore.ingested, underway.settled]
  · rw [ingested_jobHistory] at member
    rcases KeyedTable.mem_insertNew.mp member with before | inserted
    · exact underway.inside row before
    · exact brought.inside row (KeyedTable.mem_of_inserted inserted).1

end Underway

/-- What is recorded of a batch is of the runs it brought. -/
theorem mem_batchEvents {input : RecordEventInput} (member : input ∈ batchEvents now batch) :
    ∃ row ∈ newEnded now batch, input ∈ (now.ingested batch.instanceId batch.rows).runEvents row.instanceId row.run ∧
      ∃ kind, input.dedupeKey = row.told kind := by
  obtain ⟨row, there, inside⟩ := List.mem_flatMap.mp member
  obtain ⟨job, -, kind, -, particular, rfl⟩ := mem_runEvents inside
  exact ⟨row, there, inside, kind, rfl⟩

/-- Of a row that is stored nothing more is told. -/
theorem told_of_held (table : CaseTable) (tellable : Tellable start values) (underway : Underway start values now)
    (brought : Brought values batch) (stored : row ∈ now.mirror.jobHistory) :
    (now.take table batch).events.Holds (row.told kind) ↔ now.events.Holds (row.told kind) := by
  rw [take_eq tellable brought]
  constructor
  · intro held
    obtain ⟨event, member, same⟩ := KeyedTable.holds_iff.mp held
    rcases mem_recordAll member with before | new
    · exact KeyedTable.holds_iff.mpr ⟨event, before, same⟩
    · obtain ⟨other, there, -, kind', told⟩ := mem_batchEvents new
      obtain ⟨inside, -, -, free⟩ := mem_newEnded brought there
      obtain ⟨-, rfl⟩ := tellable.told_inj (underway.inside row stored) inside (same.symm.trans told)
      exact absurd (KeyedTable.holds_of_mem stored) free
  · intro held
    exact holds_of_prefix (records_recordAll table (fun _ _ => .ok ()) _ _) held

end Batch

/-! ## Any batches -/

section Deliver
variable {table : CaseTable} {start now : AlertStore} {values : List JobHistoryRow} {batches : List HistoryBatch}
variable {row : JobHistoryRow} {kind : NotificationEventKind}

theorem Underway.deliver (table : CaseTable) (tellable : Tellable start values) (underway : Underway start values now)
    (brought : ∀ batch ∈ batches, Brought values batch) : Underway start values (now.deliver table batches) := by
  induction batches generalizing now with
  | nil => exact underway
  | cons batch rest ih =>
    exact ih (underway.take table tellable (brought batch List.mem_cons_self)) fun other member =>
      brought other (List.mem_cons_of_mem _ member)

theorem holds_deliver (table : CaseTable) (now : AlertStore) (tellable : Tellable start values)
    (brought : ∀ batch ∈ batches, Brought values batch) {key : HistoryKey} :
    (now.deliver table batches).mirror.jobHistory.Holds key ↔
      now.mirror.jobHistory.Holds key ∨ key ∈ (storedContents batches).map JobHistoryRow.key := by
  induction batches generalizing now with
  | nil => exact (or_iff_left List.not_mem_nil).symm
  | cons batch rest ih =>
    have later := ih (now.take table batch) fun other member => brought other (List.mem_cons_of_mem _ member)
    rw [storedContents_cons, List.map_append, List.mem_append, ← or_assoc, ← KeyedTable.holds_insertNew,
      ← take_jobHistory tellable (brought batch List.mem_cons_self)]
    exact later

/-- Which rows are there depends only on which were delivered. -/
theorem mem_deliver (tellable : Tellable start values) (blank : start.Blank)
    (brought : ∀ batch ∈ batches, Brought values batch) (all : ∀ row ∈ values, row ∈ storedContents batches) :
    row ∈ (start.deliver table batches).mirror.jobHistory ↔ row ∈ values := by
  have inside := Underway.deliver table tellable (Underway.refl blank) brought
  refine ⟨inside.inside row, fun member => ?_⟩
  have held := (holds_deliver table start tellable brought).mpr (.inr (List.mem_map_of_mem (all row member)))
  obtain ⟨found, there, same⟩ := KeyedTable.holds_iff.mp held
  exact tellable.determined found (inside.inside found there) row member same ▸ there

/-- Of a row that is stored nothing more is told. -/
theorem told_deliver (table : CaseTable) (tellable : Tellable start values) (underway : Underway start values now)
    (brought : ∀ batch ∈ batches, Brought values batch) (stored : row ∈ now.mirror.jobHistory) :
    (now.deliver table batches).events.Holds (row.told kind) ↔ now.events.Holds (row.told kind) := by
  induction batches generalizing now with
  | nil => exact Iff.rfl
  | cons batch rest ih =>
    have here := brought batch List.mem_cons_self
    have still : row ∈ (now.take table batch).mirror.jobHistory := by
      rw [take_jobHistory tellable here]
      exact KeyedTable.mem_insertNew.mpr (.inl stored)
    have later := ih (underway.take table tellable here)
      (fun other member => brought other (List.mem_cons_of_mem _ member)) still
    exact later.trans (told_of_held table tellable underway here stored)

end Deliver

/-! ## Runs that tell only of themselves -/

/-- Each run that is stored is told by its own event, and nothing else is told. -/
def Faithful (now : AlertStore) : Prop :=
  ∀ key, now.events.Holds key ↔ ∃ row ∈ now.mirror.jobHistory, row.Ended ∧ key = row.told row.ownKind

section Faithful
variable {table : CaseTable} {start now : AlertStore} {values : List JobHistoryRow} {batch : HistoryBatch}

/-- A run without a failure before it has one event. -/
theorem runEvents_own (table : CaseTable) (tellable : Tellable start values) (underway : Underway start values now)
    {row : JobHistoryRow} (member : row ∈ values) (ended : row.Ended)
    (alone : row.runStatus = 1 → ∀ failed ∈ now.mirror.jobHistory, failed.job = row.job → failed.runStatus = 0 →
      ¬ failed.sqlInstanceId < row.sqlInstanceId) :
    ∃ input, now.runEvents row.instanceId row.run = [input] ∧ input.dedupeKey = row.told row.ownKind ∧
      (now.Wired table input ↔ ReachesChannels table start row) := by
  obtain ⟨job, context⟩ := underway.job tellable member
  obtain ⟨particular, events⟩ := runEvents_ended ended context
  rw [if_neg] at events
  · exact ⟨_, events, rfl, (wired_own context).trans underway.reaches⟩
  · rintro ⟨succeeded, counted⟩
    obtain ⟨failed, there, isJob, isFailed, below⟩ := previousFailures_pos counted
    exact alone succeeded failed there isJob isFailed below

theorem faithful_take (tellable : Tellable start values) (underway : Underway start values now)
    (brought : Brought values batch) (steady : ¬ Recovers values) (free : ¬ Stops table start values)
    (faithful : Faithful now) : Faithful (now.take table batch) := by
  have own : ∀ row ∈ newEnded now batch, ∃ input,
      (now.ingested batch.instanceId batch.rows).runEvents row.instanceId row.run = [input] ∧
        input.dedupeKey = row.told row.ownKind ∧
        ((now.ingested batch.instanceId batch.rows).Wired table input ↔ ReachesChannels table start row) := by
    intro row member
    have between := underway.ingested brought
    obtain ⟨inside, ended, -, -⟩ := mem_newEnded brought member
    exact runEvents_own table tellable between inside ended fun succeeded failed there isJob isFailed below =>
      steady ⟨failed, between.inside failed there, row, inside, isJob, isFailed, succeeded, below⟩
  intro key
  rw [take_jobHistory tellable brought, take_eq tellable brought]
  constructor
  · intro held
    obtain ⟨event, member, rfl⟩ := KeyedTable.holds_iff.mp held
    rcases mem_recordAll member with before | new
    · obtain ⟨row, there, ended, same⟩ := (faithful event.dedupeKey).mp (KeyedTable.holds_iff.mpr ⟨event, before, rfl⟩)
      exact ⟨row, KeyedTable.mem_insertNew.mpr (.inl there), ended, same⟩
    · obtain ⟨row, there, inside, -⟩ := mem_batchEvents new
      obtain ⟨input, events, told, -⟩ := own row there
      rw [events, List.mem_singleton] at inside
      have inserted := (List.mem_filter.mp there).1
      exact ⟨row, KeyedTable.mem_insertNew.mpr (.inr inserted), (mem_newEnded brought there).2.1,
        (congrArg RecordEventInput.dedupeKey inside).trans told⟩
  · rintro ⟨row, there, ended, rfl⟩
    rcases KeyedTable.mem_insertNew.mp there with before | inserted
    · exact holds_of_prefix (records_recordAll table _ _ _) ((faithful _).mpr ⟨row, before, ended, rfl⟩)
    · have isNew : row ∈ newEnded now batch := List.mem_filter.mpr ⟨inserted, decide_eq_true
        ⟨tellable.outcome row (brought.inside row (KeyedTable.mem_of_inserted inserted).1), ended⟩⟩
      obtain ⟨input, events, told, -⟩ := own row isNew
      rw [← told]
      by_cases wired : ∀ input ∈ batchEvents now batch, (now.ingested batch.instanceId batch.rows).Wired table input
      · refine holds_wired wired input (List.mem_flatMap.mpr ⟨row, isNew, ?_⟩)
        rw [events]
        exact List.mem_singleton_self input
      · -- What cannot be queued is then the only run of the batch.
        obtain ⟨dead, wired⟩ := not_forall.mp wired
        obtain ⟨inBatch, unwired⟩ := Classical.not_imp.mp wired
        obtain ⟨stopped, isStopped, inside, -⟩ := mem_batchEvents inBatch
        obtain ⟨only, stoppedEvents, -, reaches⟩ := own stopped isStopped
        rw [stoppedEvents, List.mem_singleton] at inside
        subst inside
        obtain ⟨stoppedInside, stoppedEnded, stoppedPlace, -⟩ := mem_newEnded brought isStopped
        have alone : ∀ other ∈ newEnded now batch, stopped = other := by
          intro other there
          obtain ⟨otherInside, otherEnded, otherPlace, -⟩ := mem_newEnded brought there
          by_contra apart
          exact free ⟨stopped, stoppedInside, other, otherInside, apart,
            stoppedPlace.trans otherPlace.symm, stoppedEnded,
            otherEnded, fun reached => unwired (reaches.mpr reached)⟩
        have one := alone row isNew
        subst one
        cases new : newEnded now batch with
        | nil =>
          rw [new] at isNew
          cases isNew
        | cons first rest =>
          have isFirst := alone first (by rw [new]; exact List.mem_cons_self)
          subst isFirst
          rw [batchEvents, new, List.flatMap_cons, events]
          exact holds_first input _

theorem faithful_deliver (tellable : Tellable start values) (underway : Underway start values now)
    {batches : List HistoryBatch} (brought : ∀ batch ∈ batches, Brought values batch) (steady : ¬ Recovers values)
    (free : ¬ Stops table start values) (faithful : Faithful now) : Faithful (now.deliver table batches) := by
  induction batches generalizing now with
  | nil => exact faithful
  | cons batch rest ih =>
    have here := brought batch List.mem_cons_self
    exact ih (underway.take table tellable here) (fun other member => brought other (List.mem_cons_of_mem _ member))
      (faithful_take tellable underway here steady free faithful)

end Faithful

/-! ## Batches of one row or two -/

section Singles
variable {table : CaseTable} {start now : AlertStore} {values : List JobHistoryRow} {instanceId : JsString}
variable {row other : JobHistoryRow} {one two : HistoryRow}

theorem historyValues_cons {rest : List HistoryRow} (isValue : historyValue instanceId one = some (.ok row)) :
    historyValues instanceId (one :: rest) = row :: historyValues instanceId rest := by
  rw [historyValues, List.filterMap_cons, isValue]
  rfl

/-- A row that is new is the whole of its batch. -/
theorem inserted_single (isValue : historyValue instanceId one = some (.ok row))
    (free : ¬ now.mirror.jobHistory.Holds row.key) :
    (now.mirror.jobHistory.insertNew (historyValues instanceId [one])).2 = [row] := by
  rw [historyValues_cons isValue]
  change (now.mirror.jobHistory.insertNew [row]).2 = [row]
  rw [KeyedTable.insertNew_free free]
  rfl

theorem inserted_pair (isValue : historyValue instanceId one = some (.ok row))
    (isOther : historyValue instanceId two = some (.ok other)) (free : ∀ key, ¬ now.mirror.jobHistory.Holds key)
    (apart : row.key ≠ other.key) :
    (now.mirror.jobHistory.insertNew (historyValues instanceId [one, two])).2 = [row, other] := by
  rw [historyValues_cons isValue, historyValues_cons isOther]
  change (now.mirror.jobHistory.insertNew [row, other]).2 = [row, other]
  have still : ¬ (now.mirror.jobHistory.add row (free row.key)).Holds other.key := fun held =>
    ((KeyedTable.holds_add _).mp held).elim (free _) (Ne.symm apart)
  rw [KeyedTable.insertNew_free (free row.key), KeyedTable.insertNew_free still]
  rfl

theorem newEnded_of_inserted {batch : HistoryBatch} {inserted : List JobHistoryRow}
    (isInserted : (now.mirror.jobHistory.insertNew (historyValues batch.instanceId batch.rows)).2 = inserted)
    (told : ∀ row ∈ inserted, row.stepId = 0 ∧ row.Ended) : newEnded now batch = inserted := by
  rw [newEnded, isInserted]
  exact List.filter_eq_self.mpr fun row member => decide_eq_true (told row member)

theorem rows_ingested (now : AlertStore) (batch : HistoryBatch) {inserted : List JobHistoryRow}
    (isInserted : (now.mirror.jobHistory.insertNew (historyValues batch.instanceId batch.rows)).2 = inserted) :
    (now.ingested batch.instanceId batch.rows).mirror.jobHistory.rows = now.mirror.jobHistory.rows ++ inserted := by
  rw [ingested_jobHistory, KeyedTable.rows_insertNew, isInserted]

theorem rows_take {batch : HistoryBatch} {inserted : List JobHistoryRow} (table : CaseTable)
    (tellable : Tellable start values) (brought : Brought values batch)
    (isInserted : (now.mirror.jobHistory.insertNew (historyValues batch.instanceId batch.rows)).2 = inserted) :
    (now.take table batch).mirror.jobHistory.rows = now.mirror.jobHistory.rows ++ inserted := by
  rw [take_jobHistory tellable brought, KeyedTable.rows_insertNew, isInserted]

theorem AlertStore.Blank.free (blank : start.Blank) (key : HistoryKey) : ¬ start.mirror.jobHistory.Holds key := by
  rw [KeyedTable.Holds, blank.history]
  exact List.not_mem_nil

theorem AlertStore.Blank.untold (blank : start.Blank) (key : JsString) : ¬ start.events.Holds key := by
  rw [KeyedTable.Holds, blank.events]
  exact List.not_mem_nil

/-- A success with one failure before it is a recovery. -/
theorem previousFailures_pair {failed succeeded : JobHistoryRow}
    (rows : now.mirror.jobHistory.rows = [failed, succeeded])
    (sameJob : failed.job = succeeded.job) (outcome : failed.stepId = 0) (also : succeeded.stepId = 0)
    (isFailed : failed.runStatus = 0) (below : failed.sqlInstanceId < succeeded.sqlInstanceId) :
    (now.failures succeeded.job succeeded.sqlInstanceId).previousFailures > 0 := by
  have latest : now.upTo succeeded.job succeeded.sqlInstanceId (fun row => row.stepId = 0) = [succeeded, failed] := by
    unfold AlertStore.upTo
    rw [rows, List.filter_eq_self.mpr]
    · rw [sortBy_eq_of_perm (consistent_descending _) ?_ (List.Perm.swap succeeded failed [])]
      · exact sortBy_eq_self (by simp; omega)
      · intro a first b second le ge
        simp only [List.mem_cons, List.not_mem_nil, or_false] at first second
        rcases first with rfl | rfl <;> rcases second with rfl | rfl <;> first | rfl | omega
    · intro row member
      simp only [List.mem_cons, List.not_mem_nil, or_false] at member
      rcases member with rfl | rfl
      · simp [sameJob, outcome, below.le]
      · simp [also]
  unfold AlertStore.failures
  rw [latest]
  simp [isFailed]

end Singles

/-! ## Deliveries that differ -/

/-- Each row on its own. -/
def singles (rows : List (JsString × HistoryRow)) : List HistoryBatch := rows.map fun entry => ⟨entry.1, [entry.2]⟩

section Differ
variable {table : CaseTable} {start : AlertStore} {rows : List (JsString × HistoryRow)} {batches : List HistoryBatch}

theorem splits_singles (rows : List (JsString × HistoryRow)) : Splits rows (singles rows) := by
  intro entry
  simp only [contents, singles, List.flatMap_map, List.map_singleton, List.flatMap_singleton']

/-- Some of the rows may come once more. -/
theorem Splits.cons (splits : Splits rows batches) {batch : HistoryBatch}
    (inside : ∀ row ∈ batch.rows, (batch.instanceId, row) ∈ rows) : Splits rows (batch :: batches) := by
  intro entry
  rw [contents, List.flatMap_cons, List.mem_append, ← splits entry]
  refine or_iff_right_of_imp fun member => ?_
  obtain ⟨row, there, rfl⟩ := List.mem_map.mp member
  exact (splits _).mpr (inside row there)

theorem Splits.mem_valuesOf (splits : Splits rows batches) {row : JobHistoryRow} :
    row ∈ storedContents batches ↔ row ∈ valuesOf rows :=
  splits.mem_stored.trans RemoteSqlAgent.mem_valuesOf.symm

theorem Splits.brought (splits : Splits rows batches) (dated : WellDated (rows.map (·.2))) :
    ∀ batch ∈ batches, Brought (valuesOf rows) batch := fun batch member =>
  ⟨splits.dated dated batch member, fun _ there =>
    splits.mem_valuesOf.mp (List.mem_flatMap.mpr ⟨batch, member, there⟩)⟩

variable {instanceId : JsString} {row other : JobHistoryRow} {one two : HistoryRow}

/-- The batches begin with one. What is told of a row of it is decided then. -/
theorem told_first (table : CaseTable) (tellable : Tellable start (valuesOf rows)) (blank : start.Blank)
    (dated : WellDated (rows.map (·.2))) {batch : HistoryBatch} (splits : Splits rows (batch :: batches))
    {kind : NotificationEventKind} (stored : row ∈ (start.take table batch).mirror.jobHistory) :
    (start.deliver table (batch :: batches)).events.Holds (row.told kind) ↔
      (start.take table batch).events.Holds (row.told kind) := by
  have brought := splits.brought dated
  have underway := (Underway.refl blank).take table tellable (brought batch List.mem_cons_self)
  exact told_deliver table tellable underway (fun other member => brought other (List.mem_cons_of_mem _ member)) stored

/-- A run that comes first and alone is told. -/
theorem told_alone (table : CaseTable) (outcomes : Outcomes start rows) (keyed : start.Keyed) (blank : start.Blank)
    (member : (instanceId, one) ∈ rows) (isValue : historyValue instanceId one = some (.ok row)) (ended : row.Ended) :
    (start.deliver table (⟨instanceId, [one]⟩ :: singles rows)).events.Holds (row.told row.ownKind) := by
  have tellable := outcomes.tellable keyed
  have splits : Splits rows (⟨instanceId, [one]⟩ :: singles rows) :=
    (splits_singles rows).cons fun row there => List.mem_singleton.mp there ▸ member
  have brought := splits.brought outcomes.dated _ List.mem_cons_self
  have inside : row ∈ valuesOf rows := mem_valuesOf.mpr ⟨_, member, isValue⟩
  have inserted := inserted_single isValue (blank.free row.key)
  have stored : row ∈ (start.take table ⟨instanceId, [one]⟩).mirror.jobHistory := by
    rw [KeyedTable.mem_iff, rows_take table tellable brought inserted]
    exact List.mem_append_right _ (List.mem_singleton_self row)
  have new : newEnded start ⟨instanceId, [one]⟩ = [row] := newEnded_of_inserted inserted fun found there =>
    List.mem_singleton.mp there ▸ ⟨tellable.outcome row inside, ended⟩
  obtain ⟨job, context⟩ := ((Underway.refl blank).ingested brought).job tellable inside
  obtain ⟨particular, events⟩ := runEvents_ended ended context
  rw [told_first table tellable blank outcomes.dated splits stored, take_eq tellable brought, batchEvents, new,
    List.flatMap_singleton, events]
  exact holds_first _ _

/-- A run that comes with one whose alert cannot be queued, and after it, is not told. -/
theorem untold_stopped (table : CaseTable) (outcomes : Outcomes start rows) (keyed : start.Keyed) (blank : start.Blank)
    (member : (instanceId, one) ∈ rows) (isValue : historyValue instanceId one = some (.ok row)) (ended : row.Ended)
    (also : (instanceId, two) ∈ rows) (isOther : historyValue instanceId two = some (.ok other))
    (alsoEnded : other.Ended)
    (apart : row ≠ other) (dead : ¬ ReachesChannels table start row) :
    Splits rows (⟨instanceId, [one, two]⟩ :: singles rows) ∧
      ¬ (start.deliver table (⟨instanceId, [one, two]⟩ :: singles rows)).events.Holds (other.told other.ownKind) := by
  have tellable := outcomes.tellable keyed
  have splits : Splits rows (⟨instanceId, [one, two]⟩ :: singles rows) :=
    (splits_singles rows).cons fun found there => by
      rcases List.mem_cons.mp there with rfl | there
      · exact member
      · exact List.mem_singleton.mp there ▸ also
  have brought := splits.brought outcomes.dated _ List.mem_cons_self
  have inside : row ∈ valuesOf rows := mem_valuesOf.mpr ⟨_, member, isValue⟩
  have otherInside : other ∈ valuesOf rows := mem_valuesOf.mpr ⟨_, also, isOther⟩
  have inserted := inserted_pair isValue isOther blank.free fun same =>
    apart (tellable.determined row inside other otherInside same)
  have stored : other ∈ (start.take table ⟨instanceId, [one, two]⟩).mirror.jobHistory := by
    rw [KeyedTable.mem_iff, rows_take table tellable brought inserted]
    simp
  have new : newEnded start ⟨instanceId, [one, two]⟩ = [row, other] :=
    newEnded_of_inserted inserted fun found there => by
    rcases List.mem_cons.mp there with rfl | there
    · exact ⟨tellable.outcome _ inside, ended⟩
    · exact List.mem_singleton.mp there ▸ ⟨tellable.outcome _ otherInside, alsoEnded⟩
  have between := (Underway.refl blank).ingested brought
  obtain ⟨job, context⟩ := between.job tellable inside
  obtain ⟨particular, events⟩ := runEvents_ended ended context
  have referenced : (start.ingested instanceId [one, two]).Referenced := by
    intro delivery there
    change delivery ∈ start.deliveries at there
    rw [KeyedTable.mem_iff, blank.deliveries] at there
    cases there
  have fresh : ¬ (start.ingested instanceId [one, two]).events.Holds
      (runEvent row.ownKind row.instanceId job row.run particular).dedupeKey := blank.untold _
  refine ⟨splits, ?_⟩
  rw [told_first table tellable blank outcomes.dated splits stored, take_eq tellable brought, batchEvents, new,
    List.flatMap_cons, events, List.cons_append]
  rw [events_dead fresh referenced fun wired => dead (between.reaches.mp ((wired_own context).mp wired))]
  rintro (before | same)
  · exact blank.untold _ before
  · exact apart (tellable.told_inj otherInside inside same).2.symm

/-- A success that comes first is not a recovery. -/
theorem untold_recovery (table : CaseTable) (outcomes : Outcomes start rows) (keyed : start.Keyed) (blank : start.Blank)
    (member : (instanceId, one) ∈ rows) (isValue : historyValue instanceId one = some (.ok row))
    (succeeded : row.runStatus = 1) :
    Splits rows (⟨instanceId, [one]⟩ :: singles rows) ∧
      ¬ (start.deliver table (⟨instanceId, [one]⟩ :: singles rows)).events.Holds (row.told .job_recovered) := by
  have tellable := outcomes.tellable keyed
  have splits : Splits rows (⟨instanceId, [one]⟩ :: singles rows) :=
    (splits_singles rows).cons fun row there => List.mem_singleton.mp there ▸ member
  have brought := splits.brought outcomes.dated _ List.mem_cons_self
  have inside : row ∈ valuesOf rows := mem_valuesOf.mpr ⟨_, member, isValue⟩
  have inserted := inserted_single isValue (blank.free row.key)
  have stored : row ∈ (start.take table ⟨instanceId, [one]⟩).mirror.jobHistory := by
    rw [KeyedTable.mem_iff, rows_take table tellable brought inserted]
    exact List.mem_append_right _ (List.mem_singleton_self row)
  have new : newEnded start ⟨instanceId, [one]⟩ = [row] := newEnded_of_inserted inserted fun found there =>
    List.mem_singleton.mp there ▸ ⟨tellable.outcome row inside, .inr succeeded⟩
  have only := rows_ingested start ⟨instanceId, [one]⟩ inserted
  rw [blank.history, List.nil_append] at only
  obtain ⟨input, events, told, -⟩ := runEvents_own table tellable ((Underway.refl blank).ingested brought) inside
    (.inr succeeded) fun _ failed there _ isFailed _ => by
      rw [KeyedTable.mem_iff, only, List.mem_singleton] at there
      subst there
      omega
  refine ⟨splits, ?_⟩
  rw [told_first table tellable blank outcomes.dated splits stored, take_eq tellable brought, batchEvents, new,
    List.flatMap_singleton, events]
  intro held
  obtain ⟨event, there, same⟩ := KeyedTable.holds_iff.mp held
  rcases mem_recordAll there with before | isInput
  · exact blank.untold _ (KeyedTable.holds_of_mem before)
  · have key : row.told .job_recovered = row.told row.ownKind :=
      same.symm.trans ((congrArg RecordEventInput.dedupeKey (List.mem_singleton.mp isInput)).trans told)
    have kinds := (tellable.told_inj inside inside key).1
    have apart : row.runStatus ≠ 0 := by omega
    rw [JobHistoryRow.ownKind, if_neg apart] at kinds
    cases kinds

/-- A success after its failure is a recovery, if its own alert can be queued. -/
theorem told_recovery (table : CaseTable) (outcomes : Outcomes start rows) (keyed : start.Keyed) (blank : start.Blank)
    (member : (instanceId, one) ∈ rows) (isValue : historyValue instanceId one = some (.ok row))
    (failed : row.runStatus = 0)
    (also : (instanceId, two) ∈ rows) (isOther : historyValue instanceId two = some (.ok other))
    (succeeded : other.runStatus = 1) (sameJob : row.job = other.job) (below : row.sqlInstanceId < other.sqlInstanceId)
    (reaches : ReachesChannels table start other) :
    Splits rows (⟨instanceId, [one]⟩ :: ⟨instanceId, [two]⟩ :: singles rows) ∧
      (start.deliver table (⟨instanceId, [one]⟩ :: ⟨instanceId, [two]⟩ :: singles rows)).events.Holds
        (other.told .job_recovered) := by
  have tellable := outcomes.tellable keyed
  have later : Splits rows (⟨instanceId, [two]⟩ :: singles rows) :=
    (splits_singles rows).cons fun row there => List.mem_singleton.mp there ▸ also
  have splits : Splits rows (⟨instanceId, [one]⟩ :: ⟨instanceId, [two]⟩ :: singles rows) :=
    later.cons fun row there => List.mem_singleton.mp there ▸ member
  have inside : row ∈ valuesOf rows := mem_valuesOf.mpr ⟨_, member, isValue⟩
  have otherInside : other ∈ valuesOf rows := mem_valuesOf.mpr ⟨_, also, isOther⟩
  have first := splits.brought outcomes.dated _ List.mem_cons_self
  have second := later.brought outcomes.dated _ List.mem_cons_self
  have inserted := inserted_single isValue (blank.free row.key)
  have before := rows_take table tellable first inserted
  rw [blank.history, List.nil_append] at before
  have free : ¬ (start.take table ⟨instanceId, [one]⟩).mirror.jobHistory.Holds other.key := by
    rw [KeyedTable.Holds, before, List.map_singleton, List.mem_singleton]
    intro same
    have id : other.sqlInstanceId = row.sqlInstanceId := congrArg Prod.snd same
    omega
  have alsoInserted := inserted_single isOther free
  have underway := (Underway.refl blank).take table tellable first
  have between := underway.ingested second
  have both := rows_ingested _ ⟨instanceId, [two]⟩ alsoInserted
  rw [before] at both
  have stored : other ∈ ((start.take table ⟨instanceId, [one]⟩).take table ⟨instanceId, [two]⟩).mirror.jobHistory := by
    rw [KeyedTable.mem_iff, rows_take table tellable second alsoInserted]
    exact List.mem_append_right _ (List.mem_singleton_self other)
  have new : newEnded (start.take table ⟨instanceId, [one]⟩) ⟨instanceId, [two]⟩ = [other] :=
    newEnded_of_inserted alsoInserted fun found there =>
      List.mem_singleton.mp there ▸ ⟨tellable.outcome other otherInside, .inr succeeded⟩
  obtain ⟨job, context⟩ := between.job tellable otherInside
  obtain ⟨particular, events⟩ := runEvents_ended (.inr succeeded) context
  rw [if_pos ⟨succeeded, previousFailures_pair both sameJob (tellable.outcome row inside)
    (tellable.outcome other otherInside) failed below⟩] at events
  refine ⟨splits, ?_⟩
  change (((start.take table ⟨instanceId, [one]⟩).take table ⟨instanceId, [two]⟩).deliver table
    (singles rows)).events.Holds _
  rw [told_deliver table tellable (underway.take table tellable second)
    ((splits_singles rows).brought outcomes.dated) stored]
  rw [take_eq tellable second, batchEvents, new, List.flatMap_singleton, events]
  exact holds_second ((wired_own context).mpr (between.reaches.mpr reaches)) _ _

end Differ

/-- The sample job is mirrored, and nothing has been delivered. -/
def orderStore : AlertStore := alertStore.next basicTable (.mirror alertTables)

theorem orderStore_blank : orderStore.Blank := ⟨rfl, rfl, rfl⟩

theorem orderStore_keyed : orderStore.Keyed := by
  intro job mirrored
  by_cases same : job = ⟨js "a1", js "b1"⟩
  · subst same
    decide
  · have none_ : alertTables.jobs job = none := if_neg same
    change (alertTables.jobs job).isSome = true at mirrored
    rw [none_] at mirrored
    cases mirrored

/-- Two runs of the sample job. -/
def orderRows (first second : Int) : List (JsString × HistoryRow) :=
  [(js "a1", alertRun 1 first), (js "a1", alertRun 2 second)]

theorem orderRows_outcomes (first second : Int) : Outcomes orderStore (orderRows first second) := by
  have each :
      ∀ entry ∈ orderRows first second, entry = (js "a1", alertRun 1 first) ∨ entry = (js "a1", alertRun 2 second) :=
    fun entry member => by simpa [orderRows] using member
  refine ⟨fun a inside b there _ id => ?_, fun row member => ?_, fun entry member => ?_, fun entry member => ?_⟩
  · rcases each a inside with rfl | rfl <;> rcases each b there with rfl | rfl <;> first | rfl | cases id
  · obtain ⟨entry, inside, rfl⟩ := List.mem_map.mp member
    rcases each entry inside with rfl | rfl <;> intro invalid <;> cases invalid
  · rcases each entry member with rfl | rfl <;> rfl
  · rcases each entry member with rfl | rfl <;> exact rfl

end RemoteSqlAgent
