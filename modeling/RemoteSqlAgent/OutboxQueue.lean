import RemoteSqlAgent.BoundedQueue
import RemoteSqlAgent.JsText
import Mathlib.Data.List.Induction
import Mathlib.Data.List.Nodup

/-! The queue in the outbox of a worker. What could not be sent waits in a table
whose ids are never given out twice; a counter beside the table says how many
rows there are. The counter is right, and table and counter together are a
bounded queue. -/
namespace RemoteSqlAgent
open Js

inductive OutboxKind where
  | history
  | activity
  | agentLog
  deriving DecidableEq

structure OutboxRow where
  id : Int
  kind : OutboxKind
  instanceName : JsString
  /-- The message, as JSON. -/
  payload : JsString
  createdAt : Int
  deriving DecidableEq

/-- The table `outbox`, in the order of its ids. -/
structure OutboxTable where
  rows : List OutboxRow
  /-- The largest id that was given out. `AUTOINCREMENT` goes on from there. -/
  sequence : Int
  ordered : rows.Pairwise (·.id < ·.id)
  issued : ∀ row ∈ rows, row.id ≤ sequence

namespace OutboxTable

/-- A database that was just created. -/
def empty : OutboxTable where
  rows := []
  sequence := 0
  ordered := .nil
  issued := by simp

/-- The row that is inserted next. -/
def next (table : OutboxTable) (kind : OutboxKind) (instanceName payload : JsString) (createdAt : Int) :
    OutboxRow where
  id := table.sequence + 1
  kind := kind
  instanceName := instanceName
  payload := payload
  createdAt := createdAt

def insert (table : OutboxTable) (kind : OutboxKind) (instanceName payload : JsString) (createdAt : Int) :
    OutboxTable where
  rows := table.rows ++ [table.next kind instanceName payload createdAt]
  sequence := table.sequence + 1
  ordered := by
    refine List.pairwise_append.mpr ⟨table.ordered, List.pairwise_singleton _ _, ?_⟩
    intro row member last here
    rw [List.mem_singleton.mp here]
    exact Int.lt_add_one_of_le (table.issued row member)
  issued := by
    intro row member
    rcases List.mem_append.mp member with before | here
    · exact (table.issued row before).trans (Int.le_add_one le_rfl)
    · rw [List.mem_singleton.mp here]
      exact le_rfl

/-- The rows that pass a test, all others being deleted. -/
def keep (table : OutboxTable) (rows : List OutboxRow) (sub : rows.Sublist table.rows) : OutboxTable where
  rows := rows
  sequence := table.sequence
  ordered := table.ordered.sublist sub
  issued row member := table.issued row (sub.subset member)

/-- `DELETE ... WHERE id IN (SELECT id ... ORDER BY id ASC LIMIT ?)`, and the
number of rows deleted. -/
def deleteOldest (table : OutboxTable) (limit : Nat) : OutboxTable × Nat :=
  (table.keep (table.rows.drop limit) (List.drop_sublist _ _), (table.rows.take limit).length)

/-- `DELETE ... WHERE id = ?`, and the number of rows deleted. -/
def delete (table : OutboxTable) (id : Int) : OutboxTable × Nat :=
  (table.keep (table.rows.filter (·.id ≠ id)) List.filter_sublist, (table.rows.filter (·.id = id)).length)

/-- The deletions of one acknowledgement, one after another. A value that SQLite
refuses to bind fails them all. -/
def deleteAll (table : OutboxTable) : List (Option Int) → Option (OutboxTable × Nat)
  | [] => some (table, 0)
  | none :: _ => none
  | some id :: ids =>
    let (table, changes) := table.delete id
    (table.deleteAll ids).map fun (table, removed) => (table, changes + removed)

/-- What is deleted is what was named, and each row is counted once. -/
theorem deleteAll_eq_some {table after : OutboxTable} {ids : List (Option Int)} {removed : Nat}
    (deleted : table.deleteAll ids = some (after, removed)) :
    after.rows = table.rows.filter (fun row => some row.id ∉ ids) ∧ after.sequence = table.sequence ∧
      removed + after.rows.length = table.rows.length := by
  induction ids generalizing table removed with
  | nil =>
    obtain ⟨rfl, rfl⟩ := Prod.mk.inj (Option.some.inj deleted)
    simp
  | cons id ids ih =>
    cases id with
    | none => cases deleted
    | some id =>
      obtain ⟨⟨rest, count⟩, later, same⟩ := Option.map_eq_some_iff.mp deleted
      obtain ⟨rfl, rfl⟩ := Prod.mk.inj same
      obtain ⟨rows, sequence, total⟩ := ih later
      refine ⟨?_, sequence, ?_⟩
      · rw [rows]
        simp only [keep, List.filter_filter, List.mem_cons, Option.some.injEq, not_or]
        refine List.filter_congr fun row _ => ?_
        simp [Bool.and_comm]
      · have split := List.length_eq_length_filter_add (l := table.rows) fun row => decide (row.id = id)
        simp only [keep, decide_not, ne_eq] at total ⊢
        omega

/-- Rows of one table with one id are one row. -/
theorem eq_of_id {table : OutboxTable} {row other : OutboxRow} (member : row ∈ table.rows)
    (member' : other ∈ table.rows) (same : row.id = other.id) : row = other := by
  have distinct : (table.rows.map (·.id)).Nodup :=
    List.pairwise_map.mpr (table.ordered.imp fun before => ne_of_lt before)
  exact List.inj_on_of_nodup_map distinct member member' same

end OutboxTable

/-- The fields of `Outbox` that are about the queue. -/
structure OutboxQueue where
  table : OutboxTable
  maxRows : Nat
  /-- `#depth`, kept beside the table so that no insert has to count it. -/
  depth : Int
  /-- `#evicted`, since the database was opened. -/
  evicted : Int

namespace OutboxQueue

/-- The constructor: the depth is counted once. -/
def opened (table : OutboxTable) (maxRows : Nat) : OutboxQueue where
  table := table
  maxRows := maxRows
  depth := table.rows.length
  evicted := 0

def evictIfNeeded (queue : OutboxQueue) : OutboxQueue :=
  if queue.depth ≤ queue.maxRows then queue
  else
    let excess := queue.depth - queue.maxRows
    let (table, removed) := queue.table.deleteOldest excess.toNat
    { queue with table := table, evicted := queue.evicted + removed, depth := queue.depth - removed }

def enqueue (queue : OutboxQueue) (kind : OutboxKind) (instanceName payload : JsString) (now : Int) :
    OutboxQueue :=
  { queue with
    table := queue.table.insert kind instanceName payload now
    depth := queue.depth + 1 }.evictIfNeeded

/-- Read a batch without removing it. -/
def peek (queue : OutboxQueue) (limit : Nat) : List OutboxRow := queue.table.rows.take limit

/-- The rows go in one transaction, which is rolled back if it fails. -/
def acknowledge (queue : OutboxQueue) (ids : List (Option Int)) : OutboxQueue :=
  if ids = [] then queue
  else
    match queue.table.deleteAll ids with
    | none => queue
    | some (table, removed) => { queue with table := table, depth := queue.depth - removed }

structure OutboxStats where
  depth : Int
  evicted : Int

def stats (queue : OutboxQueue) : OutboxStats where
  depth := queue.depth
  evicted := queue.evicted

/-! ## A bounded queue -/

variable {queue : OutboxQueue}

/-- The invariant: the counter is the number of rows. -/
def Counted (queue : OutboxQueue) : Prop := queue.depth = queue.table.rows.length

theorem opened_counted (table : OutboxTable) (maxRows : Nat) : (opened table maxRows).Counted := rfl

/-- The row an enqueue inserts. -/
def inserted (queue : OutboxQueue) (kind : OutboxKind) (instanceName payload : JsString) (now : Int) :
    OutboxRow := queue.table.next kind instanceName payload now

/-- Enqueueing is an offer to a bounded queue. -/
theorem enqueue_rows (counted : queue.Counted) (kind : OutboxKind) (instanceName payload : JsString) (now : Int) :
    (queue.enqueue kind instanceName payload now).table.rows =
      BoundedQueue.offer queue.maxRows queue.table.rows (queue.inserted kind instanceName payload now) := by
  simp only [enqueue, evictIfNeeded, BoundedQueue.offer, inserted]
  rw [counted]
  split
  · rename_i fits
    rw [Nat.sub_eq_zero_of_le (by exact_mod_cast fits), List.drop_zero]
    rfl
  · simp only [OutboxTable.deleteOldest, OutboxTable.keep, OutboxTable.insert]
    congr 1
    omega

theorem enqueue_counted (counted : queue.Counted) (kind : OutboxKind) (instanceName payload : JsString)
    (now : Int) : (queue.enqueue kind instanceName payload now).Counted := by
  simp only [Counted, enqueue, evictIfNeeded]
  rw [counted]
  split
  · simp [OutboxTable.insert]
  · simp only [OutboxTable.deleteOldest, OutboxTable.keep, OutboxTable.insert, List.length_drop, List.length_take,
      List.length_append, List.length_singleton]
    omega

/-- The eviction counter counts what an enqueue dropped. -/
theorem enqueue_evicted (counted : queue.Counted) (kind : OutboxKind) (instanceName payload : JsString)
    (now : Int) : (queue.enqueue kind instanceName payload now).evicted = queue.evicted +
      (BoundedQueue.dropped queue.maxRows queue.table.rows (queue.inserted kind instanceName payload now)).length := by
  simp only [enqueue, evictIfNeeded, BoundedQueue.dropped]
  rw [counted]
  split
  · rename_i fits
    rw [Nat.sub_eq_zero_of_le (by exact_mod_cast fits)]
    simp
  · simp only [OutboxTable.deleteOldest, OutboxTable.insert, List.length_take, List.length_append,
      List.length_singleton]
    congr 2
    omega

theorem enqueue_sequence (kind : OutboxKind) (instanceName payload : JsString) (now : Int) :
    (queue.enqueue kind instanceName payload now).table.sequence = queue.table.sequence + 1 := by
  simp only [enqueue, evictIfNeeded]
  split <;> rfl

theorem enqueue_maxRows (kind : OutboxKind) (instanceName payload : JsString) (now : Int) :
    (queue.enqueue kind instanceName payload now).maxRows = queue.maxRows := by
  simp only [enqueue, evictIfNeeded]
  split <;> rfl

/-- Whether an acknowledgement of these ids takes a row out. -/
def Acknowledges (ids : List (Option Int)) (row : OutboxRow) : Bool :=
  none ∉ ids && some row.id ∈ ids

/-- Every id can be bound, or the whole fails. -/
theorem deleteAll_isSome (table : OutboxTable) {ids : List (Option Int)} :
    (table.deleteAll ids).isSome = true ↔ none ∉ ids := by
  induction ids generalizing table with
  | nil => simp [OutboxTable.deleteAll]
  | cons id ids ih =>
    cases id with
    | none => simp [OutboxTable.deleteAll]
    | some id =>
      simp only [OutboxTable.deleteAll, Option.isSome_map, List.mem_cons, reduceCtorEq, false_or]
      exact ih _

/-- Acknowledging takes out exactly the rows that were named. -/
theorem acknowledge_rows (ids : List (Option Int)) : (queue.acknowledge ids).table.rows =
    queue.table.rows.filter fun row => !Acknowledges ids row := by
  unfold acknowledge Acknowledges
  split
  · rename_i empty
    simp [empty]
  cases deleted : queue.table.deleteAll ids with
  | none =>
    have refused : none ∈ ids := by
      by_contra bound
      have whole := (deleteAll_isSome queue.table).mpr bound
      rw [deleted] at whole
      cases whole
    simp [refused]
  | some result =>
    have bound : none ∉ ids := (deleteAll_isSome queue.table).mp (by rw [deleted]; rfl)
    rw [(OutboxTable.deleteAll_eq_some deleted).1]
    simp [bound]

theorem acknowledge_counted (counted : queue.Counted) (ids : List (Option Int)) :
    (queue.acknowledge ids).Counted := by
  unfold acknowledge
  split
  · exact counted
  cases deleted : queue.table.deleteAll ids with
  | none => exact counted
  | some result =>
    have total := (OutboxTable.deleteAll_eq_some deleted).2.2
    simp only [Counted] at counted ⊢
    omega

/-- An acknowledgement evicts nothing. -/
theorem acknowledge_evicted (ids : List (Option Int)) : (queue.acknowledge ids).evicted = queue.evicted := by
  unfold acknowledge
  split
  · rfl
  cases queue.table.deleteAll ids <;> rfl

/-- An acknowledgement gives out no id. -/
theorem acknowledge_sequence (ids : List (Option Int)) :
    (queue.acknowledge ids).table.sequence = queue.table.sequence := by
  unfold acknowledge
  split
  · rfl
  cases deleted : queue.table.deleteAll ids with
  | none => rfl
  | some result => exact (OutboxTable.deleteAll_eq_some deleted).2.1

/-! ## Runs of the queue -/

/-- What is done to an outbox. Closing it and opening it again may change its
bound. -/
inductive Operation where
  | enqueue (kind : OutboxKind) (instanceName payload : JsString) (now : Int)
  | peek (limit : Nat)
  | acknowledge (ids : List (Option Int))
  | reopen (maxRows : Nat)

/-- A queue with its past: the rows that were stored, acknowledged and evicted
since the database was created, and the batches that were read. -/
structure History where
  queue : OutboxQueue
  enqueued : List OutboxRow
  acknowledged : List OutboxRow
  evicted : List OutboxRow
  /-- How many of them were evicted before the database was last opened. -/
  evictedBefore : Nat
  peeked : List (List OutboxRow)

namespace History

def start (maxRows : Nat) : History where
  queue := opened .empty maxRows
  enqueued := []
  acknowledged := []
  evicted := []
  evictedBefore := 0
  peeked := []

def perform (history : History) : Operation → History
  | .enqueue kind instanceName payload now =>
    let row := history.queue.inserted kind instanceName payload now
    { history with
      queue := history.queue.enqueue kind instanceName payload now
      enqueued := history.enqueued ++ [row]
      evicted := history.evicted ++
        BoundedQueue.dropped history.queue.maxRows history.queue.table.rows row }
  | .peek limit => { history with peeked := history.queue.peek limit :: history.peeked }
  | .acknowledge ids => { history with
      queue := history.queue.acknowledge ids
      acknowledged := history.acknowledged ++ history.queue.table.rows.filter (Acknowledges ids) }
  | .reopen maxRows => { history with
      queue := opened history.queue.table maxRows
      evictedBefore := history.evicted.length }

def run (maxRows : Nat) (operations : List Operation) : History :=
  operations.foldl perform (start maxRows)

/-- The invariant of a history. -/
structure Kept (history : History) : Prop where
  counted : history.queue.Counted
  account : BoundedQueue.Accounted history.enqueued history.queue.table.rows history.acknowledged history.evicted
  /-- The eviction counter starts again when the database is opened. -/
  evicted : history.evictedBefore + history.queue.evicted = history.evicted.length
  /-- Of the rows in a batch only those can be stored under its ids. -/
  peeked : ∀ batch ∈ history.peeked, ∀ read ∈ batch, read.id ≤ history.queue.table.sequence ∧
    ∀ row ∈ history.queue.table.rows, row.id = read.id → row = read

theorem start_kept (maxRows : Nat) : (start maxRows).Kept where
  counted := rfl
  account := .empty
  evicted := rfl
  peeked := by simp [start]

theorem perform_kept {history : History} (kept : history.Kept) (operation : Operation) :
    (history.perform operation).Kept := by
  cases operation with
  | enqueue kind instanceName payload now =>
    refine ⟨enqueue_counted kept.counted kind instanceName payload now, ?_, ?_, ?_⟩
    · change BoundedQueue.Accounted _ (history.queue.enqueue kind instanceName payload now).table.rows _ _
      rw [enqueue_rows kept.counted]
      exact kept.account.offer _ _
    · change (history.evictedBefore : Int) + (history.queue.enqueue kind instanceName payload now).evicted = _
      rw [enqueue_evicted kept.counted, ← Int.add_assoc, kept.evicted]
      simp only [perform, List.length_append, Int.natCast_add]
    · intro batch member read inBatch
      obtain ⟨issued, only⟩ := kept.peeked batch member read inBatch
      change read.id ≤ (history.queue.enqueue kind instanceName payload now).table.sequence ∧
        ∀ row ∈ (history.queue.enqueue kind instanceName payload now).table.rows, _
      rw [enqueue_sequence, enqueue_rows kept.counted]
      refine ⟨issued.trans (Int.le_add_one le_rfl), fun row there same => ?_⟩
      rcases List.mem_append.mp (List.mem_of_mem_drop there) with before | here
      · exact only row before same
      · -- The id of the new row was never given out, so no batch has it.
        rw [List.mem_singleton.mp here] at same
        change history.queue.table.sequence + 1 = read.id at same
        omega
  | peek limit =>
    refine ⟨kept.counted, kept.account, kept.evicted, fun batch member read inBatch => ?_⟩
    rcases List.mem_cons.mp member with rfl | earlier
    · have stored : read ∈ history.queue.table.rows := List.mem_of_mem_take inBatch
      exact ⟨history.queue.table.issued read stored, fun row there same => OutboxTable.eq_of_id there stored same⟩
    · exact kept.peeked batch earlier read inBatch
  | acknowledge ids =>
    refine ⟨acknowledge_counted kept.counted ids, ?_, ?_, fun batch member read inBatch => ?_⟩
    · change BoundedQueue.Accounted _ (history.queue.acknowledge ids).table.rows _ _
      rw [acknowledge_rows]
      exact kept.account.take _
    · change (history.evictedBefore : Int) + (history.queue.acknowledge ids).evicted = _
      rw [acknowledge_evicted]
      exact kept.evicted
    · obtain ⟨issued, only⟩ := kept.peeked batch member read inBatch
      change read.id ≤ (history.queue.acknowledge ids).table.sequence ∧
        ∀ row ∈ (history.queue.acknowledge ids).table.rows, _
      rw [acknowledge_sequence, acknowledge_rows]
      exact ⟨issued, fun row there same => only row (List.mem_of_mem_filter there) same⟩
  | reopen maxRows => exact ⟨opened_counted _ _, kept.account, by simp [perform, opened], kept.peeked⟩

theorem run_kept (maxRows : Nat) (operations : List Operation) : (run maxRows operations).Kept := by
  induction operations using List.reverseRecOn with
  | nil => exact start_kept maxRows
  | append_singleton earlier last ih =>
    rw [run, List.foldl_append]
    exact perform_kept ih last

end History

/-- **The outbox is a bounded queue.** After any operations, on any bounds: the
depth is the number of rows, the rows are in the order in which they were
stored, and every row that was ever stored is still there, was acknowledged or
was evicted. An enqueue is an offer to a queue of the current bound: it leaves no
more rows than that and evicts from the front. Acknowledging ids of a batch that
was read takes out rows of that batch only. -/
theorem outbox_is_bounded_queue (maxRows : Nat) (operations : List Operation) :
    let history := History.run maxRows operations
    history.queue.stats.depth = history.queue.table.rows.length ∧
      history.queue.table.rows.Sublist history.enqueued ∧
      history.enqueued.Perm (history.queue.table.rows ++ (history.acknowledged ++ history.evicted)) ∧
      (history.enqueued.length : Int) =
        history.queue.stats.depth + history.acknowledged.length + history.evicted.length ∧
      history.evictedBefore + history.queue.stats.evicted = history.evicted.length ∧
      (∀ kind instanceName payload now,
        let later := history.perform (.enqueue kind instanceName payload now)
        later.queue.stats.depth ≤ later.queue.maxRows ∧
        later.queue.table.rows = BoundedQueue.offer history.queue.maxRows history.queue.table.rows
          (history.queue.inserted kind instanceName payload now) ∧
        (0 < history.queue.maxRows →
          history.queue.inserted kind instanceName payload now ∈ later.queue.table.rows) ∧
        ∃ gone, later.evicted = history.evicted ++ gone ∧ gone ++ later.queue.table.rows =
          history.queue.table.rows ++ [history.queue.inserted kind instanceName payload now]) ∧
      (∀ ids, (history.queue.acknowledge ids).table.rows =
        history.queue.table.rows.filter fun row => !Acknowledges ids row) ∧
      ∀ batch ∈ history.peeked, ∀ ids : List (Option Int),
        (∀ id ∈ ids, id ∈ batch.map (some ·.id)) → ∀ row ∈ history.queue.table.rows,
        row ∉ (history.queue.acknowledge ids).table.rows → row ∈ batch := by
  intro history
  have kept : history.Kept := History.run_kept maxRows operations
  refine ⟨kept.counted, kept.account.inOrder, kept.account.each, ?_, kept.evicted, ?_, acknowledge_rows, ?_⟩
  · change _ = history.queue.depth + _ + _
    rw [kept.counted, kept.account.length]
    simp
  · intro kind instanceName payload now
    refine ⟨?_, enqueue_rows kept.counted kind instanceName payload now, fun room => ?_, _, rfl, ?_⟩
    · change (history.queue.enqueue kind instanceName payload now).depth ≤
        (history.queue.enqueue kind instanceName payload now).maxRows
      rw [enqueue_counted kept.counted, enqueue_rows kept.counted, enqueue_maxRows]
      exact_mod_cast BoundedQueue.length_offer_le _ _ _
    · change _ ∈ (history.queue.enqueue kind instanceName payload now).table.rows
      rw [enqueue_rows kept.counted]
      exact BoundedQueue.mem_offer room _ _
    · change _ ++ (history.queue.enqueue kind instanceName payload now).table.rows = _
      rw [enqueue_rows kept.counted]
      exact BoundedQueue.dropped_append_offer _ _ _
  · intro batch member ids named row stored gone
    rw [acknowledge_rows, List.mem_filter, not_and] at gone
    have taken : Acknowledges ids row = true := by simpa using gone stored
    simp only [Acknowledges, Bool.and_eq_true, decide_eq_true_eq] at taken
    obtain ⟨read, inBatch, same⟩ := List.mem_map.mp (named _ taken.2)
    rw [(kept.peeked batch member read inBatch).2 row stored (Option.some.inj same).symm]
    exact inBatch

end OutboxQueue

end RemoteSqlAgent
