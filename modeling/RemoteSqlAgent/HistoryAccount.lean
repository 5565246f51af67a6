import RemoteSqlAgent.HistoryDelivery
import Mathlib.Tactic.DeriveEncodable
import Mathlib.Logic.Equiv.List

/-! Where a row of history is. Nothing confirms to the worker that a message was
stored, so a row is safe only while its message is not lost on the way: as long
as no stream breaks with history in flight, every row that was read is stored,
queued, counted as evicted, or still on its way. -/
namespace RemoteSqlAgent
open Js

namespace HistorySystem

variable {codec : MessageCodec} {crypto : Crypto} {config : WorkerConfig} {system : HistorySystem} {key : HistoryKey}

/-- A row of the outbox holds the row of history. -/
def Holds (codec : MessageCodec) (rows : List OutboxRow) (key : HistoryKey) : Prop :=
  ∃ row ∈ rows, ∃ message, codec.parse row.payload = some message ∧ key ∈ message.keys

def InFlight (system : HistorySystem) (key : HistoryKey) : Prop :=
  ∃ stream, ∃ message ∈ system.inFlight stream, key ∈ message.keys

/-- The places where a row of history is not lost. -/
inductive Safe (codec : MessageCodec) (system : HistorySystem) (key : HistoryKey) : Prop where
  | stored (member : key ∈ system.stored)
  | queued (holds : Holds codec system.outbox.queue.table.rows key)
  | evicted (holds : Holds codec system.outbox.evicted key)
  | inFlight (flies : system.InFlight key)

/-- Nothing that was safe is lost. -/
def Keeps (codec : MessageCodec) (before after : HistorySystem) : Prop :=
  ∀ key, Safe codec before key → Safe codec after key

theorem Keeps.trans {first second third : HistorySystem} (earlier : Keeps codec first second)
    (later : Keeps codec second third) : Keeps codec first third :=
  fun key safe => later key (earlier key safe)

/-- The bookmarks, the polls and the session hold no history. -/
theorem keeps_of_places {before after : HistorySystem} (stored : after.stored = before.stored)
    (outbox : after.outbox = before.outbox) (inFlight : after.inFlight = before.inFlight) :
    Keeps codec before after := by
  intro key safe
  cases safe with
  | stored member => exact .stored (stored ▸ member)
  | queued holds => exact .queued (outbox ▸ holds)
  | evicted holds => exact .evicted (outbox ▸ holds)
  | inFlight flies => exact .inFlight (by rw [InFlight, inFlight]; exact flies)

/-! ## Sending and queueing -/

theorem send_true {after : HistorySystem} {message : WorkerMessage} {throws : Bool}
    (sent : system.send message throws = (true, after)) : ∃ stream, after = { system with
      inFlight := Function.update system.inFlight stream (system.inFlight stream ++ [message]) } := by
  unfold send at sent
  split at sent
  · cases sent
  · rename_i stream _
    split at sent
    · cases sent
    · exact ⟨stream, (Prod.mk.inj sent).2.symm⟩

theorem send_false {after : HistorySystem} {message : WorkerMessage} {throws : Bool}
    (refused : system.send message throws = (false, after)) : after = system := by
  unfold send at refused
  split at refused
  · exact (Prod.mk.inj refused).2.symm
  · split at refused
    · exact (Prod.mk.inj refused).2.symm
    · cases refused

private theorem mem_inFlight_append {inFlight : Nat → List WorkerMessage} {stream other : Nat}
    {message new : WorkerMessage} (member : message ∈ inFlight other) :
    message ∈ Function.update inFlight stream (inFlight stream ++ [new]) other := by
  by_cases same : other = stream
  · subst same
    rw [Function.update_self]
    exact List.mem_append_left _ member
  · rwa [Function.update_of_ne same]

theorem sent_keeps (stream : Nat) (message : WorkerMessage) : Keeps codec system { system with
    inFlight := Function.update system.inFlight stream (system.inFlight stream ++ [message]) } := by
  intro key safe
  cases safe with
  | stored member => exact .stored member
  | queued holds => exact .queued holds
  | evicted holds => exact .evicted holds
  | inFlight flies =>
    obtain ⟨other, held, member, carried⟩ := flies
    exact .inFlight ⟨other, held, mem_inFlight_append member, carried⟩

theorem sent_inFlight (stream : Nat) {message : WorkerMessage} (carried : key ∈ message.keys) :
    InFlight { system with
      inFlight := Function.update system.inFlight stream (system.inFlight stream ++ [message]) } key := by
  refine ⟨stream, message, ?_, carried⟩
  change message ∈ Function.update system.inFlight stream (system.inFlight stream ++ [message]) stream
  rw [Function.update_self]
  exact List.mem_append_right _ List.mem_cons_self

/-- An enqueue moves rows to the evicted ones at most. -/
theorem enqueued_mem (kept : system.outbox.Kept) (kind : OutboxKind) (instanceName payload : JsString) (now : Int)
    {row : OutboxRow} (member : row ∈ system.outbox.queue.table.rows ∨
      row = system.outbox.queue.inserted kind instanceName payload now) :
    row ∈ (system.outbox.perform (.enqueue kind instanceName payload now)).queue.table.rows ∨
      row ∈ (system.outbox.perform (.enqueue kind instanceName payload now)).evicted := by
  have whole := BoundedQueue.dropped_append_offer system.outbox.queue.maxRows system.outbox.queue.table.rows
    (system.outbox.queue.inserted kind instanceName payload now)
  have present : row ∈ system.outbox.queue.table.rows ++
      [system.outbox.queue.inserted kind instanceName payload now] := by
    simpa only [List.mem_append, List.mem_singleton] using member
  rw [← whole] at present
  change row ∈ (system.outbox.queue.enqueue kind instanceName payload now).table.rows ∨ _
  rw [OutboxQueue.enqueue_rows kept.counted]
  rcases List.mem_append.mp present with gone | there
  · exact .inr (List.mem_append_right _ gone)
  · exact .inl there

theorem enqueued_keeps (kept : system.outbox.Kept) (kind : OutboxKind) (instanceName payload : JsString) (now : Int) :
    Keeps codec system { system with
      outbox := system.outbox.perform (.enqueue kind instanceName payload now) } := by
  intro key safe
  cases safe with
  | stored member => exact .stored member
  | queued holds =>
    obtain ⟨row, member, message, parsed, carried⟩ := holds
    rcases enqueued_mem kept _ _ _ _ (.inl member) with there | gone
    · exact .queued ⟨row, there, message, parsed, carried⟩
    · exact .evicted ⟨row, gone, message, parsed, carried⟩
  | evicted holds =>
    obtain ⟨row, member, message, parsed, carried⟩ := holds
    exact .evicted ⟨row, List.mem_append_left _ member, message, parsed, carried⟩
  | inFlight flies => exact .inFlight flies

theorem emit_kept (kept : system.outbox.Kept) (message : WorkerMessage) (throws : Bool) (now : Int) :
    (system.emit codec message throws now).outbox.Kept := by
  unfold emit
  split
  · rename_i sent
    obtain ⟨stream, rfl⟩ := send_true sent
    exact kept
  · rename_i refused
    obtain rfl := send_false refused
    split
    · exact kept
    · rename_i kind instanceName _
      exact OutboxQueue.History.perform_kept kept (.enqueue kind instanceName (codec.stringify message) now)

theorem emit_keeps (kept : system.outbox.Kept) (message : WorkerMessage) (throws : Bool) (now : Int) :
    Keeps codec system (system.emit codec message throws now) := by
  unfold emit
  split
  · rename_i sent
    obtain ⟨stream, rfl⟩ := send_true sent
    exact sent_keeps stream message
  · rename_i refused
    obtain rfl := send_false refused
    split
    · exact fun _ safe => safe
    · exact enqueued_keeps kept _ _ _ _

theorem emit_read (message : WorkerMessage) (throws : Bool) (now : Int) :
    (system.emit codec message throws now).read = system.read := by
  unfold emit
  split
  · rename_i sent
    obtain ⟨stream, rfl⟩ := send_true sent
    rfl
  · rename_i refused
    obtain rfl := send_false refused
    split <;> rfl

/-- History that is emitted is in flight or in the outbox. -/
theorem emit_safe (kept : system.outbox.Kept) {instanceName : JsString} {rows : List HistoryRow} {throws : Bool}
    {now : Int} (carried : key ∈ (WorkerMessage.history instanceName rows).keys) :
    Safe codec (system.emit codec (.history instanceName rows) throws now) key := by
  unfold emit
  split
  · rename_i sent
    obtain ⟨stream, rfl⟩ := send_true sent
    exact .inFlight (sent_inFlight stream carried)
  · rename_i refused
    obtain rfl := send_false refused
    have there := enqueued_mem kept .history instanceName (codec.stringify (.history instanceName rows)) now
      (.inr rfl)
    rcases there with queued | evicted
    · exact .queued ⟨_, queued, _, codec.parse_stringify _, carried⟩
    · exact .evicted ⟨_, evicted, _, codec.parse_stringify _, carried⟩

/-- History that is read is carried by its message. -/
theorem mem_keys_of_record {instanceName : JsString} {records : List HistoryRecord} {record : HistoryRecord}
    (member : record ∈ records) : (instanceName, record.sqlInstanceId) ∈
      (WorkerMessage.history instanceName (records.map HistoryRecord.toRow)).keys := by
  refine List.mem_map.mpr ⟨record.toRow, List.mem_filter.mpr ⟨List.mem_map_of_mem member, ?_⟩, rfl⟩
  simp only [HistoryRecord.toRow, fromTimestamp, Option.map_some, Option.isSome_some]

/-! ## Draining -/

/-- What sending a batch does: nothing on its way is disturbed, and every row to
be acknowledged is on its way or no message. -/
structure BatchSent (codec : MessageCodec) (system : HistorySystem) (rows : List OutboxRow) (sent : List Int)
    (after : HistorySystem) : Prop where
  outbox : after.outbox = system.outbox
  stored : after.stored = system.stored
  read : after.read = system.read
  flies : ∀ key, system.InFlight key → after.InFlight key
  sent : ∀ id ∈ sent, ∃ row ∈ rows, row.id = id ∧ ∀ message, codec.parse row.payload = some message →
    ∀ key ∈ message.keys, after.InFlight key

theorem sendBatch_sent {throws : OutboxRow → Bool} {rows : List OutboxRow} {sent : List Int}
    {stoppedEarly : Bool} {after : HistorySystem}
    (batch : sendBatch codec throws system rows = (sent, stoppedEarly, after)) :
    BatchSent codec system rows sent after := by
  induction rows generalizing system sent with
  | nil =>
    cases batch
    exact ⟨rfl, rfl, rfl, fun _ flies => flies, by simp⟩
  | cons row rest ih =>
    cases parsed : codec.parse row.payload with
    | none =>
      rcases later : sendBatch codec throws system rest with ⟨ids, stopped, last⟩
      simp only [sendBatch, parsed, later] at batch
      cases batch
      have done := ih later
      refine ⟨done.outbox, done.stored, done.read, done.flies, fun id member => ?_⟩
      rcases List.mem_cons.mp member with rfl | inRest
      · exact ⟨row, List.mem_cons_self, rfl, fun message same => by rw [parsed] at same; cases same⟩
      · obtain ⟨other, there, carries⟩ := done.sent id inRest
        exact ⟨other, List.mem_cons_of_mem _ there, carries⟩
    | some message =>
      rcases sending : system.send message (throws row) with ⟨accepted, next⟩
      cases accepted with
      | false =>
        simp only [sendBatch, parsed, sending] at batch
        cases batch
        obtain rfl := send_false sending
        exact ⟨rfl, rfl, rfl, fun _ flies => flies, by simp⟩
      | true =>
        rcases later : sendBatch codec throws next rest with ⟨ids, stopped, last⟩
        simp only [sendBatch, parsed, sending, later] at batch
        cases batch
        have done := ih later
        obtain ⟨stream, rfl⟩ := send_true sending
        refine ⟨done.outbox, done.stored, done.read, fun key flies => ?_, fun id member => ?_⟩
        · obtain ⟨other, held, inOther, carried⟩ := flies
          exact done.flies key ⟨other, held, mem_inFlight_append inOther, carried⟩
        rcases List.mem_cons.mp member with rfl | inRest
        · refine ⟨row, List.mem_cons_self, rfl, fun held same key carried => ?_⟩
          rw [parsed] at same
          cases same
          exact done.flies key (sent_inFlight stream carried)
        · obtain ⟨other, there, carries⟩ := done.sent id inRest
          exact ⟨other, List.mem_cons_of_mem _ there, carries⟩

/-- What is acknowledged is on its way. -/
theorem acknowledged_keeps {rows : List OutboxRow} {sent : List Int} {after : HistorySystem}
    (stored : ∀ row ∈ rows, row ∈ system.outbox.queue.table.rows) (batch : BatchSent codec system rows sent after) :
    Keeps codec system { after with outbox := after.outbox.perform (.acknowledge (sent.map some)) } := by
  intro key safe
  cases safe with
  | stored member => exact .stored (batch.stored.symm ▸ member)
  | evicted holds => exact .evicted (by rw [← batch.outbox] at holds; exact holds)
  | inFlight flies => exact .inFlight (batch.flies key flies)
  | queued holds =>
    obtain ⟨row, member, message, parsed, carried⟩ := holds
    by_cases taken : some row.id ∈ sent.map some
    · obtain ⟨id, inSent, same⟩ := List.mem_map.mp taken
      obtain ⟨other, inRows, named, carries⟩ := batch.sent id inSent
      have one : other = row :=
        OutboxTable.eq_of_id (stored other inRows) member (named.trans (Option.some.inj same))
      exact .inFlight (carries message (one ▸ parsed) key carried)
    · refine .queued ⟨row, ?_, message, parsed, carried⟩
      change row ∈ (after.outbox.queue.acknowledge (sent.map some)).table.rows
      rw [OutboxQueue.acknowledge_rows, batch.outbox]
      refine List.mem_filter.mpr ⟨member, ?_⟩
      simp only [OutboxQueue.Acknowledges, taken, decide_false, Bool.and_false, Bool.not_false]

/-- The account of a system: its outbox keeps its own, and every row that was
read is safe. -/
structure Accounts (codec : MessageCodec) (system : HistorySystem) : Prop where
  kept : system.outbox.Kept
  each : ∀ key ∈ system.read, Safe codec system key

/-- A step that keeps what was safe and reads nothing keeps the account. -/
theorem Accounts.step {after : HistorySystem} (accounts : Accounts codec system) (kept : after.outbox.Kept)
    (keeps : Keeps codec system after) (read : after.read = system.read) : Accounts codec after where
  kept := kept
  each key member := keeps key (accounts.each key (read ▸ member))

theorem drainRounds_accounts {throws : OutboxRow → Bool} {rounds : Nat} (accounts : Accounts codec system) :
    Accounts codec (drainRounds codec throws rounds system) := by
  induction rounds generalizing system with
  | zero => exact accounts
  | succ rounds ih =>
    unfold drainRounds
    split
    · exact accounts
    rename_i peeked
    rcases sending : system.sendBatch codec throws (system.outbox.queue.peek OUTBOX_DRAIN_BATCH) with
      ⟨sent, stoppedEarly, after⟩
    have batch := sendBatch_sent sending
    have acknowledged : Accounts codec
        { after with outbox := after.outbox.perform (.acknowledge (sent.map some)) } := by
      refine ⟨?_, fun key member => ?_⟩
      · rw [batch.outbox]
        exact OutboxQueue.History.perform_kept accounts.kept (.acknowledge (sent.map some))
      · exact acknowledged_keeps (fun row inBatch => List.mem_of_mem_take inBatch) batch key
          (accounts.each key (batch.read ▸ member))
    simp only
    split
    · exact acknowledged
    · exact ih acknowledged

/-! ## Runs -/

/-- What is required of a step: a stream that breaks, and a hub that does not
store what it takes, have only history that is stored already. -/
def Lossless (system : HistorySystem) : Act → Prop
  | .lost stream => ∀ message ∈ system.inFlight stream, ∀ key ∈ message.keys, key ∈ system.stored
  | .taken stream declared fails => ∀ instanceName rows later,
      system.inFlight stream = .history instanceName rows :: later →
      (instanceName ∈ declared ∧ fails = false) ∨
        ∀ key ∈ (WorkerMessage.history instanceName rows).keys, key ∈ system.stored
  | _ => True

/-- Whatever the hub takes is stored, or was before. -/
theorem handleMessage_stored (stored : List HistoryKey) (declared : List JsString) (fails : Bool)
    (message : WorkerMessage)
    (stores : ∀ instanceName rows, message = .history instanceName rows →
      (instanceName ∈ declared ∧ fails = false) ∨ ∀ key ∈ message.keys, key ∈ stored) :
    (∀ key ∈ stored, key ∈ handleMessage stored declared fails message) ∧
      ∀ key ∈ message.keys, key ∈ handleMessage stored declared fails message := by
  cases message with
  | history instanceName rows =>
    simp only [handleMessage]
    split
    · rename_i ignored
      refine ⟨fun _ member => member, fun key carried => ?_⟩
      rcases stores instanceName rows rfl with ⟨known, succeeds⟩ | already
      · rcases ignored with unknown | failed
        · exact absurd known unknown
        · rw [succeeds] at failed
          cases failed
      · exact already key carried
    · exact ⟨fun _ member => List.mem_append_left _ member, fun _ carried => List.mem_append_right _ carried⟩
  | activity | agentLog | other => exact ⟨fun _ member => member, fun _ carried => nomatch carried⟩

theorem pollAnswered_accounts (accounts : Accounts codec system) (poll : HistoryPoll)
    (records : List HistoryRecord) (throws : Bool) (now : Int) :
    Accounts codec (system.pollAnswered codec poll records throws now) := by
  unfold pollAnswered
  split
  · exact accounts
  rename_i first rest _
  let asked : HistorySystem := { system with
    read := system.read ++ records.map fun record : HistoryRecord => (poll.instanceName, record.sqlInstanceId) }
  let emitted := asked.emit codec (.history poll.instanceName (records.map HistoryRecord.toRow)) throws now
  have kept : asked.outbox.Kept := accounts.kept
  have still : Keeps codec system asked := keeps_of_places rfl rfl rfl
  have handed : Accounts codec emitted := by
    refine ⟨emit_kept kept _ throws now, fun key member => ?_⟩
    rw [emit_read] at member
    rcases List.mem_append.mp member with before | here
    · exact emit_keeps kept _ throws now key (still key (accounts.each key before))
    · obtain ⟨record, inBatch, rfl⟩ := List.mem_map.mp here
      exact emit_safe kept (mem_keys_of_record inBatch)
  change Accounts codec (if records.length < poll.batchSize then
    emitted.setHistoryHighWaterMark poll.instanceName (rest.foldl max first)
    else (emitted.setHistoryHighWaterMark poll.instanceName (rest.foldl max first)).pollHistory
      poll.instanceName poll.batchSize)
  split <;> exact handed.step handed.kept (keeps_of_places rfl rfl rfl) rfl

/-- One step keeps the account, if it loses no history that is not stored. -/
theorem act_accounts (accounts : Accounts codec system) {next : Act} (lossless : system.Lossless next) :
    Accounts codec (system.act codec crypto config next) := by
  cases next with
  | session event => exact accounts.step accounts.kept (keeps_of_places rfl rfl rfl) rfl
  | received stream message => exact accounts.step accounts.kept (keeps_of_places rfl rfl rfl) rfl
  | connected instanceName maxHistoryId =>
    change Accounts codec (system.connectInstance instanceName maxHistoryId)
    unfold connectInstance
    split
    · exact accounts.step accounts.kept (keeps_of_places rfl rfl rfl) rfl
    · exact accounts
  | poll instanceName batchSize => exact accounts.step accounts.kept (keeps_of_places rfl rfl rfl) rfl
  | answered index records throws now =>
    simp only [act]
    split
    · exact accounts
    · apply pollAnswered_accounts
      exact accounts.step accounts.kept (keeps_of_places rfl rfl rfl) rfl
  | failed index => exact accounts.step accounts.kept (keeps_of_places rfl rfl rfl) rfl
  | activity instanceName throws now =>
    exact accounts.step (emit_kept accounts.kept _ _ _) (emit_keeps accounts.kept _ _ _) (emit_read _ _ _)
  | agentLog instanceName throws now =>
    exact accounts.step (emit_kept accounts.kept _ _ _) (emit_keeps accounts.kept _ _ _) (emit_read _ _ _)
  | drain throws =>
    simp only [act, drainOutbox]
    split
    · exact accounts
    · exact drainRounds_accounts accounts
  | taken stream declared fails =>
    simp only [act]
    split
    · exact accounts
    rename_i message rest queue
    obtain ⟨still, there⟩ := handleMessage_stored system.stored declared fails message
      fun instanceName rows same => same ▸ lossless instanceName rows rest (same ▸ queue)
    refine accounts.step accounts.kept (fun key safe => ?_) rfl
    cases safe with
    | stored member => exact .stored (still key member)
    | queued holds => exact .queued holds
    | evicted holds => exact .evicted holds
    | inFlight flies =>
      obtain ⟨other, held, member, carried⟩ := flies
      by_cases same : other = stream
      · subst same
        rw [queue] at member
        rcases List.mem_cons.mp member with rfl | later
        · exact .stored (there key carried)
        · refine .inFlight ⟨other, held, ?_, carried⟩
          change held ∈ Function.update system.inFlight other rest other
          rwa [Function.update_self]
      · refine .inFlight ⟨other, held, ?_, carried⟩
        change held ∈ Function.update system.inFlight stream rest other
        rwa [Function.update_of_ne same]
  | lost stream =>
    refine accounts.step accounts.kept (fun key safe => ?_) rfl
    cases safe with
    | stored member => exact .stored member
    | queued holds => exact .queued holds
    | evicted holds => exact .evicted holds
    | inFlight flies =>
      obtain ⟨other, held, member, carried⟩ := flies
      by_cases same : other = stream
      · exact .stored (lossless held (same ▸ member) key carried)
      · refine .inFlight ⟨other, held, ?_, carried⟩
        change held ∈ Function.update system.inFlight stream [] other
        rwa [Function.update_of_ne same]
  | restart maxRows =>
    refine accounts.step (OutboxQueue.History.perform_kept accounts.kept (.reopen maxRows)) (fun key safe => ?_) rfl
    cases safe with
    | stored member => exact .stored member
    | queued holds => exact .queued holds
    | evicted holds => exact .evicted holds
    | inFlight flies => exact .inFlight flies

/-- Every step of the run loses no history that is not stored. -/
def LosslessRun (codec : MessageCodec) (crypto : Crypto) (config : WorkerConfig) (maxRows : Nat)
    (acts : List Act) : Prop :=
  ∀ earlier next later, acts = earlier ++ next :: later →
    (run codec crypto config maxRows earlier).Lossless next

/-- Steps that lose nothing in any state. -/
theorem LosslessRun.of_forall {maxRows : Nat} {acts : List Act}
    (lossless : ∀ next ∈ acts, ∀ system : HistorySystem, system.Lossless next) :
    LosslessRun codec crypto config maxRows acts := by
  intro earlier next later same
  exact lossless next (same ▸ List.mem_append_right _ List.mem_cons_self) _

theorem LosslessRun.snoc {maxRows : Nat} {acts : List Act} (lossless : LosslessRun codec crypto config maxRows acts)
    {last : Act} (lossless' : (run codec crypto config maxRows acts).Lossless last) :
    LosslessRun codec crypto config maxRows (acts ++ [last]) := by
  intro earlier next later same
  rcases List.eq_nil_or_concat later with rfl | ⟨before, final, rfl⟩
  · obtain ⟨rfl, rfl⟩ := List.append_inj' same rfl |>.imp_right List.singleton_inj.mp
    exact lossless'
  · rw [List.concat_eq_append, ← List.cons_append, ← List.append_assoc] at same
    exact lossless earlier next before (List.append_inj' same rfl).1

theorem run_accounts {maxRows : Nat} {acts : List Act} (lossless : LosslessRun codec crypto config maxRows acts) :
    Accounts codec (run codec crypto config maxRows acts) := by
  induction acts using List.reverseRecOn with
  | nil => exact ⟨OutboxQueue.History.start_kept maxRows, by simp [run, start]⟩
  | append_singleton earlier last ih =>
    rw [run, List.foldl_append]
    refine act_accounts (ih fun before next after same => ?_) (lossless earlier last [] rfl)
    exact lossless before next (after ++ [last]) (by rw [same, List.append_assoc, List.cons_append])

/-- Every row that was read, up to the bookmark, is stored, queued, or counted as
evicted. -/
def Delivered (codec : MessageCodec) (system : HistorySystem) : Prop :=
  ∀ key ∈ system.read, key.2 ≤ system.highWaterMark key.1 →
    key ∈ system.stored ∨ Holds codec system.outbox.queue.table.rows key ∨
      Holds codec system.outbox.evicted key

/-- **History is delivered as long as nothing is lost on the way.** After a run
that loses no history in flight, every row that was read is stored, queued,
evicted or in flight, so that with nothing in flight it is delivered; and what
was evicted is counted. -/
theorem history_delivered {maxRows : Nat} {acts : List Act}
    (lossless : LosslessRun codec crypto config maxRows acts) :
    let system := run codec crypto config maxRows acts
    (∀ key ∈ system.read, key ∈ system.stored ∨ Holds codec system.outbox.queue.table.rows key ∨
      Holds codec system.outbox.evicted key ∨ system.InFlight key) ∧
    ((∀ key, ¬ system.InFlight key) → Delivered codec system) ∧
    system.outbox.evictedBefore + system.outbox.queue.stats.evicted = system.outbox.evicted.length := by
  intro system
  have accounts := run_accounts lossless
  have each : ∀ key ∈ system.read, key ∈ system.stored ∨ Holds codec system.outbox.queue.table.rows key ∨
      Holds codec system.outbox.evicted key ∨ system.InFlight key := by
    intro key member
    cases accounts.each key member with
    | stored there => exact .inl there
    | queued holds => exact .inr (.inl holds)
    | evicted holds => exact .inr (.inr (.inl holds))
    | inFlight flies => exact .inr (.inr (.inr flies))
  refine ⟨each, fun landed key member _ => ?_, accounts.kept.evicted⟩
  rcases each key member with there | queued | evicted | flies
  · exact .inl there
  · exact .inr (.inl queued)
  · exact .inr (.inr evicted)
  · exact absurd flies (landed key)

section Outage

/-! One row is read and sent on a live stream, and the outbox stays empty. -/

deriving instance Encodable for Timestamp
deriving instance Encodable for HistoryRow
deriving instance Encodable for WorkerMessage

/-- Some codec, for runs that queue nothing. -/
noncomputable def numberedCodec : MessageCodec where
  stringify message := digits (Encodable.encode message)
  parse := Function.partialInv fun message => digits (Encodable.encode message)
  parse_stringify := Function.partialInv_left (digits_injective.comp Encodable.encode_injective)

def readOnlyConfig : WorkerConfig where
  maxCapability := .readOnly
  commandSigningKeyFingerprint := none
  fingerprint := by simp

def outcomeRecord : HistoryRecord where
  sqlInstanceId := 7
  jobUuid := js "j1"
  stepId := 0
  stepName := js "(Job outcome)"
  runStatus := 1
  runDatetime := 1700000000000
  runDurationSeconds := 3
  message := js "The job succeeded."
  retriesAttempted := 0
  server := js "SQL01"
  sqlSeverity := 0
  sqlMessageId := 0

/-- The worker connects and polls. -/
def outagePoll : List Act :=
  [.session .start, .session (.dialed true),
    .received 0 (some (.helloAck { capabilities := [], commandSigningPublicKey := [] })),
    .poll (js "SQL01") 500, .answered 0 [outcomeRecord] false 1700000001000]

noncomputable def outageRun (acts : List Act) : HistorySystem :=
  run numberedCodec sampleCrypto readOnlyConfig 100 acts

/-- The stream breaks with the row in flight. The bookmark is past it, and
nothing has it. -/
theorem history_lost_outage : ¬ ∀ codec crypto config maxRows acts,
    Delivered codec (run codec crypto config maxRows acts) := by
  intro claim
  have delivered := claim numberedCodec sampleCrypto readOnlyConfig 100 (outagePoll ++ [.lost 0])
  have read : (js "SQL01", 7) ∈ (outageRun (outagePoll ++ [.lost 0])).read := List.mem_cons_self
  have marked : 7 ≤ (outageRun (outagePoll ++ [.lost 0])).highWaterMark (js "SQL01") := by
    decide +kernel
  rcases delivered _ read marked with stored | ⟨row, queued, -⟩ | ⟨row, evicted, -⟩
  · cases stored
  · cases queued
  · cases evicted

theorem history_delivered_outage :
    (js "SQL01", 7) ∈ (outageRun (outagePoll ++ [.taken 0 [js "SQL01"] false])).read ∧
      Delivered numberedCodec (outageRun (outagePoll ++ [.taken 0 [js "SQL01"] false])) := by
  have lossless : LosslessRun numberedCodec sampleCrypto readOnlyConfig 100
      (outagePoll ++ [.taken 0 [js "SQL01"] false]) := by
    have polled : LosslessRun numberedCodec sampleCrypto readOnlyConfig 100 outagePoll := by
      refine .of_forall fun next member system => ?_
      simp only [outagePoll, List.mem_cons, List.not_mem_nil, or_false] at member
      rcases member with rfl | rfl | rfl | rfl | rfl <;> trivial
    refine polled.snoc fun instanceName rows later flying => .inl ⟨?_, rfl⟩
    have name : js "SQL01" = instanceName := (WorkerMessage.history.inj (List.cons.inj flying).1).1
    exact name ▸ List.mem_cons_self
  refine ⟨List.mem_cons_self, (history_delivered lossless).2.1 fun key flies => ?_⟩
  obtain ⟨stream, message, member, -⟩ := flies
  cases stream with
  | zero => cases member
  | succ later => cases member

end Outage

end HistorySystem

end RemoteSqlAgent
