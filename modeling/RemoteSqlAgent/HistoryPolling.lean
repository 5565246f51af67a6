import RemoteSqlAgent.AgentRepo
import RemoteSqlAgent.HistoryAccount
import RemoteSqlAgent.KeyedTable
import RemoteSqlAgent.RowOrder

/-! A poll of job history, with what it reads from msdb. The query limits the rows to a
batch before the reader drops the ones without a run time, so the loop counts fewer rows
than it asked for, and takes that for the end. -/
namespace RemoteSqlAgent
open Js

/-- A row of `msdb.dbo.sysjobhistory`. Its time of run is what `agent_datetime` makes of
the date and the time in it. -/
structure SysJobHistoryRow where
  instance_id : Int
  job_id : JsString
  step_id : Int
  step_name : Option JsString
  run_status : Int
  run_datetime : Option Int
  run_duration : Int
  message : Option JsString
  retries_attempted : Int
  server : Option JsString
  sql_severity : Int
  sql_message_id : Int

/-- The table. Its ids are of an identity column. -/
structure SysJobHistory where
  rows : List SysJobHistoryRow
  distinct : (rows.map (·.instance_id)).Nodup

namespace SysJobHistoryRow

/-- A duration is stored as its digits, in the shape HHMMSS. -/
def run_duration_seconds (row : SysJobHistoryRow) : Int :=
  (row.run_duration.tdiv 10000) * 3600 + ((row.run_duration.tdiv 100).tmod 100) * 60 + row.run_duration.tmod 100

/-- What the worker reads of a row. One without a time of run is not read. -/
def record (row : SysJobHistoryRow) : Option HistoryRecord :=
  row.run_datetime.map fun runDatetime =>
    { sqlInstanceId := row.instance_id
      jobUuid := normaliseUuid row.job_id
      stepId := row.step_id
      stepName := row.step_name.getD []
      runStatus := row.run_status
      runDatetime := runDatetime
      runDurationSeconds := row.run_duration_seconds
      message := row.message.getD []
      retriesAttempted := row.retries_attempted
      server := row.server.getD []
      sqlSeverity := row.sql_severity
      sqlMessageId := row.sql_message_id }

def Dated (row : SysJobHistoryRow) : Prop := row.run_datetime.isSome

instance (row : SysJobHistoryRow) : Decidable row.Dated := inferInstanceAs (Decidable (_ = true))

theorem sqlInstanceId_of_record {row : SysJobHistoryRow} {record : HistoryRecord} (read : row.record = some record) :
    record.sqlInstanceId = row.instance_id := by
  obtain ⟨runDatetime, -, rfl⟩ := Option.map_eq_some_iff.mp read
  rfl

theorem dated_iff {row : SysJobHistoryRow} : row.Dated ↔ ∃ record, row.record = some record := by
  rw [← Option.isSome_iff_exists, record, Option.isSome_map]
  rfl

end SysJobHistoryRow

namespace SysJobHistory
variable (history : SysJobHistory)

/-- The rows above a bookmark, in the order of their ids. -/
def above (highWaterMark : Int) : List SysJobHistoryRow :=
  sortBy (fun a b => a.instance_id - b.instance_id) (history.rows.filter (highWaterMark < ·.instance_id))

/-- `HISTORY_QUERY`, and of its rows those with a time. -/
def readHistorySince (highWaterMark : Int) (batchSize : Nat) : List HistoryRecord :=
  ((history.above highWaterMark).take batchSize).filterMap (·.record)

end SysJobHistory

/-- The bookmark of an instance in `sync_state`. An instance without a row has none yet. -/
abbrev HistoryMark := Option Int

namespace HistoryMark

def getHistoryHighWaterMark (mark : HistoryMark) : Int := mark.getD 0

/-- The bookmark never goes back. -/
def setHistoryHighWaterMark (mark : HistoryMark) (value : Int) : HistoryMark :=
  some (mark.elim value fun highWaterMark => max highWaterMark value)

end HistoryMark

/-- `Math.max(...records.map((r) => r.sqlInstanceId))`. -/
def maxId (first : HistoryRecord) (rest : List HistoryRecord) : Int :=
  (rest.map (·.sqlInstanceId)).foldl max first.sqlInstanceId

theorem maxId_isGreatest (first : HistoryRecord) (rest : List HistoryRecord) :
    IsGreatest {id | ∃ record ∈ first :: rest, record.sqlInstanceId = id} (maxId first rest) := by
  have run : ∀ highest : Int, IsGreatest {id | id = highest ∨ ∃ record ∈ rest, record.sqlInstanceId = id}
      ((rest.map (·.sqlInstanceId)).foldl max highest) := by
    induction rest with
    | nil => exact fun highest => ⟨.inl rfl, by simp [upperBounds]⟩
    | cons record rest ih =>
      intro highest
      obtain ⟨attained, bound⟩ := ih (max highest record.sqlInstanceId)
      have low : max highest record.sqlInstanceId ≤
          (rest.map (·.sqlInstanceId)).foldl max (max highest record.sqlInstanceId) := bound (.inl rfl)
      refine ⟨?_, ?_⟩
      · rcases attained with same | ⟨other, member, same⟩
        · rcases max_choice highest record.sqlInstanceId with left | right
          · exact .inl (same.trans left)
          · exact .inr ⟨record, List.mem_cons_self, right.symm.trans same.symm⟩
        · exact .inr ⟨other, List.mem_cons_of_mem _ member, same⟩
      · rintro id (rfl | ⟨other, member, rfl⟩)
        · exact le_trans (le_max_left _ _) low
        · rcases List.mem_cons.mp member with rfl | later
          · exact le_trans (le_max_right _ _) low
          · exact bound (.inr ⟨other, later, rfl⟩)
  obtain ⟨attained, bound⟩ := run first.sqlInstanceId
  refine ⟨?_, ?_⟩
  · rcases attained with same | ⟨other, member, same⟩
    · exact ⟨first, List.mem_cons_self, same.symm⟩
    · exact ⟨other, List.mem_cons_of_mem _ member, same⟩
  · rintro id ⟨record, member, rfl⟩
    rcases List.mem_cons.mp member with rfl | later
    · exact bound (.inl rfl)
    · exact bound (.inr ⟨record, later, rfl⟩)

namespace SysJobHistory
variable {history : SysJobHistory} {highWaterMark : Int} {batchSize n : Nat} {row : SysJobHistoryRow}

theorem mem_above : row ∈ history.above highWaterMark ↔ row ∈ history.rows ∧ highWaterMark < row.instance_id := by
  rw [above, mem_sortBy, List.mem_filter, decide_eq_true_iff]

theorem above_ascending (history : SysJobHistory) (highWaterMark : Int) :
    (history.above highWaterMark).Pairwise fun a b => a.instance_id < b.instance_id :=
  ascending_pairwise (history.distinct.sublist (List.filter_sublist.map _))

/-- What is above a later bookmark. -/
theorem above_above {later : Int} (higher : highWaterMark ≤ later) :
    history.above later = (history.above highWaterMark).filter (later < ·.instance_id) := by
  refine eq_of_ascending (above_ascending history later) ((above_ascending history highWaterMark).filter _) ?_
  intro row
  rw [mem_above, List.mem_filter, mem_above, decide_eq_true_iff]
  constructor
  · rintro ⟨member, above⟩
    exact ⟨⟨member, higher.trans_lt above⟩, above⟩
  · rintro ⟨⟨member, -⟩, above⟩
    exact ⟨member, above⟩

/-- With the bookmark at the highest id of a batch, the rest of the rows is above it. -/
theorem above_last {later : Int}
    (last : IsGreatest {id | ∃ row ∈ (history.above highWaterMark).take n, row.instance_id = id} later) :
    history.above later = (history.above highWaterMark).drop n := by
  obtain ⟨⟨top, member, rfl⟩, bound⟩ := last
  have ascending := above_ascending history highWaterMark
  rw [← List.take_append_drop n (history.above highWaterMark)] at ascending
  have cross := (List.pairwise_append.mp ascending).2.2
  rw [above_above (mem_above.mp (List.mem_of_mem_take member)).2.le]
  conv_lhs => rw [← List.take_append_drop n (history.above highWaterMark)]
  rw [List.filter_append, List.filter_eq_nil_iff.mpr, List.filter_eq_self.mpr, List.nil_append]
  · exact fun row later => decide_eq_true (cross top member row later)
  · exact fun row earlier => by simpa using bound ⟨row, earlier, rfl⟩

end SysJobHistory

/-! ## The poll -/

section Poll
variable (history : SysJobHistory) (batchSize : Nat) (instanceName : JsString)

theorem maxId_above {highWaterMark : Int} {first : HistoryRecord} {rest : List HistoryRecord}
    (records : history.readHistorySince highWaterMark batchSize = first :: rest) :
    ∃ row ∈ history.above highWaterMark, row.instance_id = maxId first rest := by
  obtain ⟨⟨record, member, same⟩, -⟩ := maxId_isGreatest first rest
  rw [← records] at member
  obtain ⟨row, there, read⟩ := List.mem_filterMap.mp member
  exact ⟨row, List.mem_of_mem_take there, (SysJobHistoryRow.sqlInstanceId_of_record read).symm.trans same⟩

/-- The bookmark is at the highest id that was read. -/
theorem mark_moved {mark : HistoryMark} {first : HistoryRecord} {rest : List HistoryRecord}
    (records : history.readHistorySince mark.getHistoryHighWaterMark batchSize = first :: rest) :
    (mark.setHistoryHighWaterMark (maxId first rest)).getHistoryHighWaterMark = maxId first rest := by
  obtain ⟨row, member, same⟩ := maxId_above history batchSize records
  have higher : mark.getHistoryHighWaterMark < maxId first rest := same ▸ (SysJobHistory.mem_above.mp member).2
  cases mark with
  | none => rfl
  | some highWaterMark => exact max_eq_right higher.le

/-- Read a batch, send what was read, move the bookmark, and go on while the batches are
full: the messages, and the bookmark in the end. -/
def pollHistory (mark : HistoryMark) : List WorkerMessage × HistoryMark :=
  match _ : history.readHistorySince mark.getHistoryHighWaterMark batchSize with
  | [] => ([], mark)
  | first :: rest =>
    let message := WorkerMessage.history instanceName ((first :: rest).map (·.toRow))
    let moved := mark.setHistoryHighWaterMark (maxId first rest)
    if (first :: rest).length < batchSize then ([message], moved)
    else
      let polled := pollHistory moved
      (message :: polled.1, polled.2)
termination_by (history.above mark.getHistoryHighWaterMark).length
decreasing_by
  rename_i records _
  obtain ⟨row, member, same⟩ := maxId_above history batchSize records
  have higher := (SysJobHistory.mem_above.mp member).2
  rw [mark_moved history batchSize records, SysJobHistory.above_above (same ▸ higher.le)]
  exact List.length_filter_lt_length_iff_exists.mpr ⟨row, member, by simp [same]⟩

end Poll

/-- The rows of an instance that messages carry. -/
def WorkerMessage.rowsOf (instanceName : JsString) : WorkerMessage → List HistoryRow
  | history name rows => if name = instanceName then rows else []
  | _ => []

/-- Counted off in batches, no row without a time is in an earlier batch than one with a
time. -/
def Together (batchSize : Nat) (rows : List SysJobHistoryRow) : Prop :=
  ∀ i j, (inside : i < rows.length) → (also : j < rows.length) → ¬ rows[i].Dated → rows[j].Dated →
    j / batchSize ≤ i / batchSize

section Batches
variable {batchSize : Nat} {rows : List SysJobHistoryRow}

theorem length_filterMap_record : (rows.filterMap (·.record)).length = rows.length ↔ ∀ row ∈ rows, row.Dated := by
  induction rows with
  | nil => simp
  | cons row rest ih =>
    have short := List.length_filterMap_le (fun row : SysJobHistoryRow => row.record) rest
    cases read : row.record with
    | none =>
      rw [List.filterMap_cons_none read, List.length_cons]
      refine ⟨fun same => absurd same (Nat.lt_succ_of_le short).ne, fun all => ?_⟩
      obtain ⟨record, found⟩ := SysJobHistoryRow.dated_iff.mp (all row List.mem_cons_self)
      cases read.symm.trans found
    | some record =>
      rw [List.filterMap_cons_some read, List.length_cons, List.length_cons, Nat.add_right_cancel_iff, ih,
        List.forall_mem_cons]
      exact ⟨fun all => ⟨SysJobHistoryRow.dated_iff.mpr ⟨record, read⟩, all⟩, And.right⟩

/-- After a batch with all its times the rest decides. -/
theorem together_drop (positive : 0 < batchSize) (full : (rows.take batchSize).length = batchSize)
    (dated : ∀ row ∈ rows.take batchSize, row.Dated) :
    Together batchSize rows ↔ Together batchSize (rows.drop batchSize) := by
  have long : batchSize ≤ rows.length := by
    rw [List.length_take] at full
    omega
  constructor
  · intro together i j inside also undated isDated
    rw [List.length_drop] at inside also
    rw [List.getElem_drop] at undated isDated
    have within := together (batchSize + i) (batchSize + j) (by omega) (by omega) undated isDated
    rw [Nat.add_div_left _ positive, Nat.add_div_left _ positive] at within
    omega
  · intro together i j inside also undated isDated
    have late : batchSize ≤ i := by
      by_contra early
      have member : rows[i] ∈ rows.take batchSize := List.mem_take_iff_getElem.mpr ⟨i, by omega, rfl⟩
      exact undated (dated _ member)
    by_cases earlier : j < batchSize
    · rw [Nat.div_eq_of_lt earlier]
      exact Nat.zero_le _
    · obtain ⟨i, rfl⟩ := Nat.exists_eq_add_of_le late
      obtain ⟨j, rfl⟩ := Nat.exists_eq_add_of_le (not_lt.mp earlier)
      have within := together i j (by rw [List.length_drop]; omega) (by rw [List.length_drop]; omega)
        (by rwa [List.getElem_drop]) (by rwa [List.getElem_drop])
      rw [Nat.add_div_left _ positive, Nat.add_div_left _ positive]
      omega

/-- After a batch that lacks a time no other row may have one. -/
theorem together_stopped (positive : 0 < batchSize)
    (short : ((rows.take batchSize).filterMap (·.record)).length < batchSize) :
    Together batchSize rows ↔ ∀ row ∈ rows.drop batchSize, ¬ row.Dated := by
  constructor
  · intro together row member isDated
    obtain ⟨j, inside, rfl⟩ := List.getElem_of_mem member
    rw [List.length_drop] at inside
    have full : (rows.take batchSize).length = batchSize := List.length_take_of_le (by omega)
    have missing : ¬ ∀ row ∈ rows.take batchSize, row.Dated := fun all =>
      short.ne ((length_filterMap_record.mpr all).trans full)
    push Not at missing
    obtain ⟨first, there, undated⟩ := missing
    obtain ⟨i, early, rfl⟩ := List.mem_take_iff_getElem.mp there
    rw [List.getElem_drop] at isDated
    have first : i < batchSize := early.trans_le (Nat.min_le_left _ _)
    have within := together i (batchSize + j) (by omega) (by omega) undated isDated
    rw [Nat.add_div_left _ positive, Nat.div_eq_of_lt first] at within
    exact absurd within (Nat.not_succ_le_zero _)
  · intro none_ i j inside also undated isDated
    have early : j < batchSize := by
      by_contra late
      obtain ⟨j, rfl⟩ := Nat.exists_eq_add_of_le (not_lt.mp late)
      exact none_ _ (List.mem_drop_iff_getElem.mpr ⟨j, by omega, rfl⟩) isDated
    rw [Nat.div_eq_of_lt early]
    exact Nat.zero_le _

end Batches

/-! ## What a poll takes -/

/-- A poll left nothing behind. -/
structure PolledDry (history : SysJobHistory) (instanceName : JsString) (mark : HistoryMark)
    (polled : List WorkerMessage × HistoryMark) : Prop where
  once : ∀ row ∈ history.rows, mark.getHistoryHighWaterMark < row.instance_id → ∀ record, row.record = some record →
    (polled.1.flatMap (WorkerMessage.rowsOf instanceName)).filter (fun sent => sent.instanceId = row.instance_id) =
      [record.toRow]
  ordered : (polled.1.flatMap (WorkerMessage.rowsOf instanceName)).Pairwise fun a b => a.instanceId < b.instanceId
  bookmark : ∀ row ∈ history.rows, mark.getHistoryHighWaterMark < row.instance_id → row.Dated →
    row.instance_id ≤ polled.2.getHistoryHighWaterMark

section Taking
variable (history : SysJobHistory) {batchSize : Nat} (instanceName : JsString)

/-- What was taken of the rows above the bookmark: the first so many. -/
structure TakenUp (batchSize : Nat) (mark : HistoryMark) (polled : List WorkerMessage × HistoryMark) (n : Nat) :
    Prop where
  rows : polled.1.flatMap (WorkerMessage.rowsOf instanceName) =
    (((history.above mark.getHistoryHighWaterMark).take n).filterMap (·.record)).map (·.toRow)
  bookmark : ∀ row ∈ (history.above mark.getHistoryHighWaterMark).take n, row.Dated →
    row.instance_id ≤ polled.2.getHistoryHighWaterMark
  forward : mark.getHistoryHighWaterMark ≤ polled.2.getHistoryHighWaterMark
  enough : Together batchSize (history.above mark.getHistoryHighWaterMark) ↔
    ∀ row ∈ (history.above mark.getHistoryHighWaterMark).drop n, ¬ row.Dated

theorem rowsOf_history (rows : List HistoryRow) : (WorkerMessage.history instanceName rows).rowsOf instanceName = rows :=
  if_pos rfl

variable {mark : HistoryMark} {first : HistoryRecord} {rest : List HistoryRecord}

theorem le_mark (records : history.readHistorySince mark.getHistoryHighWaterMark batchSize = first :: rest)
    {row : SysJobHistoryRow} (member : row ∈ (history.above mark.getHistoryHighWaterMark).take batchSize)
    (isDated : row.Dated) :
    row.instance_id ≤ (mark.setHistoryHighWaterMark (maxId first rest)).getHistoryHighWaterMark := by
  obtain ⟨record, read⟩ := SysJobHistoryRow.dated_iff.mp isDated
  have there : record ∈ first :: rest := records ▸ List.mem_filterMap.mpr ⟨row, member, read⟩
  rw [mark_moved history batchSize records, ← SysJobHistoryRow.sqlInstanceId_of_record read]
  exact (maxId_isGreatest first rest).2 ⟨record, there, rfl⟩

theorem mark_forward (records : history.readHistorySince mark.getHistoryHighWaterMark batchSize = first :: rest) :
    mark.getHistoryHighWaterMark ≤ (mark.setHistoryHighWaterMark (maxId first rest)).getHistoryHighWaterMark := by
  obtain ⟨row, member, same⟩ := maxId_above history batchSize records
  rw [mark_moved history batchSize records, ← same]
  exact (SysJobHistory.mem_above.mp member).2.le

/-- After a batch with all its times the next begins where it ended. -/
theorem above_moved (records : history.readHistorySince mark.getHistoryHighWaterMark batchSize = first :: rest)
    (dated : ∀ row ∈ (history.above mark.getHistoryHighWaterMark).take batchSize, row.Dated) :
    history.above (mark.setHistoryHighWaterMark (maxId first rest)).getHistoryHighWaterMark =
      (history.above mark.getHistoryHighWaterMark).drop batchSize := by
  have read : ((history.above mark.getHistoryHighWaterMark).take batchSize).filterMap (·.record) = first :: rest :=
    records
  refine SysJobHistory.above_last ⟨?_, ?_⟩
  · obtain ⟨⟨record, member, same⟩, -⟩ := maxId_isGreatest first rest
    rw [← read] at member
    obtain ⟨row, there, isRecord⟩ := List.mem_filterMap.mp member
    rw [mark_moved history batchSize records, ← same, SysJobHistoryRow.sqlInstanceId_of_record isRecord]
    exact ⟨row, there, rfl⟩
  · rintro id ⟨row, member, rfl⟩
    exact le_mark history records member (dated row member)

theorem pollHistory_taken (positive : 0 < batchSize) (mark : HistoryMark) :
    ∃ n, TakenUp history instanceName batchSize mark (pollHistory history batchSize instanceName mark) n := by
  fun_induction pollHistory history batchSize instanceName mark with
  | case1 mark records =>
    have none_ : ((history.above mark.getHistoryHighWaterMark).take batchSize).filterMap (·.record) = [] := records
    refine ⟨batchSize, ?_, ?_, le_rfl, together_stopped positive ?_⟩
    · rw [none_]
      rfl
    · intro row member isDated
      obtain ⟨record, read⟩ := SysJobHistoryRow.dated_iff.mp isDated
      exact absurd (List.mem_filterMap.mpr ⟨row, member, read⟩) (none_ ▸ List.not_mem_nil)
    · rw [none_]
      exact positive
  | case2 mark first rest records message moved short =>
    have read : ((history.above mark.getHistoryHighWaterMark).take batchSize).filterMap (·.record) = first :: rest :=
      records
    refine ⟨batchSize, ?_, fun row => le_mark history records, mark_forward history records,
      together_stopped positive (read ▸ short)⟩
    rw [List.flatMap_singleton, rowsOf_history, read]
  | case3 mark first rest records message moved long polled ih =>
    have read : ((history.above mark.getHistoryHighWaterMark).take batchSize).filterMap (·.record) = first :: rest :=
      records
    have most := List.length_filterMap_le (·.record) ((history.above mark.getHistoryHighWaterMark).take batchSize)
    have within := List.length_take_le batchSize (history.above mark.getHistoryHighWaterMark)
    rw [read] at most
    have full : ((history.above mark.getHistoryHighWaterMark).take batchSize).length = batchSize := by omega
    have dated := length_filterMap_record.mp
      (show (((history.above mark.getHistoryHighWaterMark).take batchSize).filterMap (·.record)).length = _ by
        rw [read]
        omega)
    have next := above_moved history records dated
    obtain ⟨n, taken⟩ := ih
    refine ⟨batchSize + n, ?_, ?_, (mark_forward history records).trans taken.forward, ?_⟩
    · have later := taken.rows
      rw [next] at later
      rw [List.flatMap_cons, later, rowsOf_history, List.take_add, List.filterMap_append, read, List.map_append]
    · intro row member isDated
      rw [List.take_add, List.mem_append] at member
      rcases member with now | later
      · exact (le_mark history records now isDated).trans taken.forward
      · exact taken.bookmark row (next ▸ later) isDated
    · rw [together_drop positive full dated, ← next, taken.enough, next, List.drop_drop]

theorem records_ascending {rows : List SysJobHistoryRow}
    (ascending : rows.Pairwise fun a b => a.instance_id < b.instance_id) :
    (rows.filterMap (·.record)).Pairwise fun a b => a.sqlInstanceId < b.sqlInstanceId := by
  refine List.pairwise_filterMap.mpr (ascending.imp ?_)
  intro a b less record read other alsoRead
  rw [SysJobHistoryRow.sqlInstanceId_of_record read, SysJobHistoryRow.sqlInstanceId_of_record alsoRead]
  exact less

theorem drained_of_taken {polled : List WorkerMessage × HistoryMark} {n : Nat}
    (taken : TakenUp history instanceName batchSize mark polled n)
    (rest : ∀ row ∈ (history.above mark.getHistoryHighWaterMark).drop n, ¬ row.Dated) :
    PolledDry history instanceName mark polled := by
  have early : ∀ row ∈ history.rows, mark.getHistoryHighWaterMark < row.instance_id → row.Dated →
      row ∈ (history.above mark.getHistoryHighWaterMark).take n := by
    intro row member above isDated
    have there := SysJobHistory.mem_above.mpr ⟨member, above⟩
    rw [← List.take_append_drop n (history.above _), List.mem_append] at there
    exact there.resolve_right fun late => rest row late isDated
  have ascending : (polled.1.flatMap (WorkerMessage.rowsOf instanceName)).Pairwise
      fun a b => a.instanceId < b.instanceId := by
    rw [taken.rows]
    exact List.pairwise_map.mpr (records_ascending ((SysJobHistory.above_ascending history _).sublist
      (List.take_sublist n _)))
  refine ⟨?_, ascending, fun row member above isDated => taken.bookmark row (early row member above isDated) isDated⟩
  intro row member above record read
  have sent : record.toRow ∈ polled.1.flatMap (WorkerMessage.rowsOf instanceName) := by
    rw [taken.rows]
    have isEarly := early row member above (SysJobHistoryRow.dated_iff.mpr ⟨record, read⟩)
    exact List.mem_map_of_mem (List.mem_filterMap.mpr ⟨row, isEarly, read⟩)
  let table : KeyedTable HistoryRow.instanceId :=
    ⟨polled.1.flatMap (WorkerMessage.rowsOf instanceName), List.pairwise_map.mpr (ascending.imp ne_of_lt)⟩
  rw [← SysJobHistoryRow.sqlInstanceId_of_record read]
  exact table.filter_key sent

/-- **A poll drains msdb exactly if, counted off in batches, no row without a time comes in an
earlier batch than one with a time.** -/
theorem pollHistory_drains_iff (positive : 0 < batchSize) (mark : HistoryMark) :
    PolledDry history instanceName mark (pollHistory history batchSize instanceName mark) ↔
      Together batchSize (history.above mark.getHistoryHighWaterMark) := by
  obtain ⟨n, taken⟩ := pollHistory_taken history instanceName positive mark
  rw [taken.enough]
  refine ⟨?_, drained_of_taken history instanceName taken⟩
  intro drained row late isDated
  obtain ⟨record, read⟩ := SysJobHistoryRow.dated_iff.mp isDated
  obtain ⟨member, above⟩ := SysJobHistory.mem_above.mp (List.mem_of_mem_drop late)
  have sent : record.toRow ∈ (pollHistory history batchSize instanceName mark).1.flatMap
      (WorkerMessage.rowsOf instanceName) := by
    refine List.mem_of_mem_filter (p := fun sent => sent.instanceId = row.instance_id) ?_
    rw [drained.once row member above record read]
    exact List.mem_singleton_self _
  rw [taken.rows] at sent
  obtain ⟨other, there, same⟩ := List.mem_map.mp sent
  obtain ⟨early, isEarly, alsoRead⟩ := List.mem_filterMap.mp there
  have ascending := SysJobHistory.above_ascending history mark.getHistoryHighWaterMark
  rw [← List.take_append_drop n (history.above _)] at ascending
  have less := (List.pairwise_append.mp ascending).2.2 early isEarly row late
  rw [← SysJobHistoryRow.sqlInstanceId_of_record read, ← SysJobHistoryRow.sqlInstanceId_of_record alsoRead] at less
  exact less.ne (congrArg HistoryRow.instanceId same)

/-- A poll that finds a batch without any time leaves the bookmark where it is, and so does
every later one. -/
theorem pollHistory_stalls (undated : ∀ row ∈ (history.above mark.getHistoryHighWaterMark).take batchSize, ¬ row.Dated) :
    pollHistory history batchSize instanceName mark = ([], mark) := by
  have records : history.readHistorySince mark.getHistoryHighWaterMark batchSize = [] := by
    refine List.filterMap_eq_nil_iff.mpr fun row member => Option.eq_none_iff_forall_ne_some.mpr ?_
    exact fun record read => undated row member (SysJobHistoryRow.dated_iff.mpr ⟨record, read⟩)
  rw [pollHistory]
  split
  · rfl
  · rename_i found
    cases records.symm.trans found

end Taking

instance (batchSize : Nat) (rows : List SysJobHistoryRow) : Decidable (Together batchSize rows) :=
  decidable_of_iff (∀ i : Fin rows.length, ∀ j : Fin rows.length, ¬ rows[i].Dated → rows[j].Dated →
      j.val / batchSize ≤ i.val / batchSize)
    ⟨fun all i j inside also => all ⟨i, inside⟩ ⟨j, also⟩, fun all i j => all i j i.isLt j.isLt⟩

/-- A row of history with an id and a time of run, if it has one. -/
def historyRow (instance_id : Int) (run_datetime : Option Int) : SysJobHistoryRow where
  instance_id := instance_id
  job_id := js "5B2E"
  step_id := 1
  step_name := some (js "Load")
  run_status := 1
  run_datetime := run_datetime
  run_duration := 130
  message := some (js "The step succeeded.")
  retries_attempted := 0
  server := some (js "sqlprod01")
  sql_severity := 0
  sql_message_id := 0

/-- Two rows without a time below one with a time. -/
def undatedHistory : SysJobHistory where
  rows := [historyRow 1 none, historyRow 2 none, historyRow 3 (some 1700000000000)]
  distinct := by decide

theorem pollHistory_drains_undated :
    PolledDry undatedHistory (js "MSSQLSERVER") none (pollHistory undatedHistory 3 (js "MSSQLSERVER") none) :=
  (pollHistory_drains_iff undatedHistory (js "MSSQLSERVER") (by decide) none).mpr (by decide)

/-- **Counterexample.** With batches of two the poll finds nothing, and goes on finding
nothing, while there is a row with a time. -/
theorem undated_batch_stalls :
    pollHistory undatedHistory 2 (js "MSSQLSERVER") none = ([], none) ∧
      (∃ row ∈ undatedHistory.rows, row.Dated) ∧
      ¬ ∀ (history : SysJobHistory) (batchSize : Nat) (mark : HistoryMark), 0 < batchSize →
        PolledDry history (js "MSSQLSERVER") mark (pollHistory history batchSize (js "MSSQLSERVER") mark) := by
  refine ⟨pollHistory_stalls undatedHistory (js "MSSQLSERVER") (by decide), by decide, ?_⟩
  intro always
  have together := (pollHistory_drains_iff undatedHistory (js "MSSQLSERVER") (by decide) none).mp
    (always undatedHistory 2 none (by decide))
  exact absurd together (by decide)

/-! ## In the system -/

namespace HistorySystem
variable (codec : MessageCodec) (crypto : Crypto) (config : WorkerConfig)
  {history : SysJobHistory} {batchSize : Nat} {instanceName : JsString} {mark : HistoryMark}

theorem emit_poll (system : HistorySystem) (message : WorkerMessage) (throws : Bool) (now : Int) :
    (system.emit codec message throws now).polls = system.polls ∧
      (system.emit codec message throws now).highWaterMark = system.highWaterMark := by
  unfold emit
  split
  · rename_i sent
    obtain ⟨stream, rfl⟩ := send_true sent
    exact ⟨rfl, rfl⟩
  · rename_i refused
    obtain rfl := send_false refused
    split <;> exact ⟨rfl, rfl⟩

/-- The system once a batch is handed on. -/
def handedOn (system : HistorySystem) (instanceName : JsString) (first : HistoryRecord) (rest : List HistoryRecord)
    (throws : Bool) (now : Int) : HistorySystem :=
  let asked := { system with
    read := system.read ++ (first :: rest).map fun record : HistoryRecord => (instanceName, record.sqlInstanceId) }
  (asked.emit codec (.history instanceName ((first :: rest).map HistoryRecord.toRow)) throws now).setHistoryHighWaterMark
    instanceName (maxId first rest)

theorem pollAnswered_cons (system : HistorySystem) (poll : HistoryPoll) (first : HistoryRecord)
    (rest : List HistoryRecord) (throws : Bool) (now : Int) :
    system.pollAnswered codec poll (first :: rest) throws now =
      if (first :: rest).length < poll.batchSize then system.handedOn codec poll.instanceName first rest throws now
      else (system.handedOn codec poll.instanceName first rest throws now).pollHistory poll.instanceName poll.batchSize :=
  rfl

theorem handedOn_polls (system : HistorySystem) (first : HistoryRecord) (rest : List HistoryRecord) (throws : Bool)
    (now : Int) : (system.handedOn codec instanceName first rest throws now).polls = system.polls :=
  (emit_poll codec _ _ _ _).1

theorem handedOn_read (system : HistorySystem) (first : HistoryRecord) (rest : List HistoryRecord) (throws : Bool)
    (now : Int) : (system.handedOn codec instanceName first rest throws now).read =
      system.read ++ (first :: rest).map fun record : HistoryRecord => (instanceName, record.sqlInstanceId) :=
  emit_read _ _ _

theorem handedOn_mark (system : HistorySystem) {first : HistoryRecord} {rest : List HistoryRecord}
    (same : system.highWaterMark instanceName = mark.getHistoryHighWaterMark)
    (records : history.readHistorySince mark.getHistoryHighWaterMark batchSize = first :: rest)
    (throws : Bool) (now : Int) : (system.handedOn codec instanceName first rest throws now).highWaterMark instanceName =
      (mark.setHistoryHighWaterMark (maxId first rest)).getHistoryHighWaterMark := by
  obtain ⟨row, member, isMax⟩ := maxId_above history batchSize records
  have higher := (SysJobHistory.mem_above.mp member).2
  rw [mark_moved history batchSize records, handedOn, setHistoryHighWaterMark]
  dsimp only
  rw [Function.update_self, (emit_poll codec _ _ _ _).2, same]
  exact max_eq_right (isMax ▸ higher.le)

/-- A poll that waits is answered. -/
theorem act_answered (system : HistorySystem) {waiting : List HistoryPoll} {poll : HistoryPoll}
    (last : system.polls = waiting ++ [poll]) (records : List HistoryRecord) (throws : Bool) (now : Int) :
    system.act codec crypto config (.answered waiting.length records throws now) =
      { system with polls := waiting }.pollAnswered codec poll records throws now := by
  have there : system.polls[waiting.length]? = some poll := by
    rw [last, List.getElem?_concat_length]
  have rest : system.polls.eraseIdx waiting.length = waiting := by
    rw [last, List.eraseIdx_append_of_length_le le_rfl, Nat.sub_self, List.eraseIdx_cons_zero, List.append_nil]
  simp only [act, there, rest]

/-- The loop is a run of the system in which each poll is answered with what msdb has. -/
theorem pollHistory_runs (throws : Bool) (now : Int) (mark : HistoryMark) (system : HistorySystem)
    (waiting : List HistoryPoll) {poll : HistoryPoll} (last : system.polls = waiting ++ [poll])
    (own : poll.instanceName = instanceName) (size : poll.batchSize = batchSize)
    (same : system.highWaterMark instanceName = mark.getHistoryHighWaterMark) :
    ∃ answers : List (List HistoryRecord), let after := (answers.map fun records =>
        Act.answered waiting.length records throws now).foldl (act codec crypto config) system
      after.highWaterMark instanceName =
          (RemoteSqlAgent.pollHistory history batchSize instanceName mark).2.getHistoryHighWaterMark ∧
        after.read = system.read ++ ((RemoteSqlAgent.pollHistory history batchSize instanceName mark).1.flatMap
          (WorkerMessage.rowsOf instanceName)).map fun row => (instanceName, row.instanceId) := by
  fun_induction RemoteSqlAgent.pollHistory history batchSize instanceName mark generalizing system poll with
  | case1 mark records => exact ⟨[], same, (List.append_nil _).symm⟩
  | case2 mark first rest records message moved =>
    rename_i short
    refine ⟨[first :: rest], ?_⟩
    rw [List.map_singleton, List.foldl_cons, List.foldl_nil, act_answered codec crypto config system last,
      pollAnswered_cons, size, if_pos short, own]
    refine ⟨handedOn_mark codec { system with polls := waiting } same records throws now, ?_⟩
    rw [handedOn_read, List.flatMap_singleton, rowsOf_history, List.map_map]
    rfl
  | case3 mark first rest records message moved long polled =>
    rename_i ih
    let waited : HistorySystem := { system with polls := waiting }
    let next := waited.handedOn codec instanceName first rest throws now
    have asked : (next.pollHistory instanceName batchSize).polls =
        waiting ++ [⟨instanceName, batchSize, next.highWaterMark instanceName⟩] :=
      congrArg (· ++ _) (handedOn_polls codec waited first rest throws now)
    obtain ⟨answers, marked, read⟩ := ih (next.pollHistory instanceName batchSize) asked rfl rfl
      (handedOn_mark codec waited same records throws now)
    refine ⟨(first :: rest) :: answers, ?_⟩
    rw [List.map_cons, List.foldl_cons, act_answered codec crypto config system last, pollAnswered_cons, size,
      if_neg long, own]
    refine ⟨marked, read.trans ?_⟩
    have own : (next.pollHistory instanceName batchSize).read = _ := handedOn_read codec waited first rest throws now
    rw [own, List.flatMap_cons, rowsOf_history, List.map_append, List.map_map, List.append_assoc]
    rfl

end HistorySystem
end RemoteSqlAgent
