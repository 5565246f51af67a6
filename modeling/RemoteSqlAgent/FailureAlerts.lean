import RemoteSqlAgent.HistoryHandler

/-! Alerts of failed runs. A failure that a batch stores is told by the same pass
of the handler or never: a replay finds the row there and tells nothing. -/
namespace RemoteSqlAgent
open Js CallProgram

/-! ## Steps -/

/-- An event of another detector, which the runs of jobs do not give. -/
structure Detection where
  input : RecordEventInput
  elsewhere : input.kind ∉ [NotificationEventKind.job_failed, .job_succeeded, .job_recovered]
  rest : JsString
  named : input.dedupeKey = input.kind.text ++ js ":" ++ rest

/-- What happens to the database. Messages are handled one after the other. -/
inductive AlertStep where
  | history (instanceId : JsString) (rows : List HistoryRow) (faults : List (Option Fault))
  /-- Jobs are mirrored, renamed or gone. -/
  | mirror (tables : JobTables)
  | detect (detection : Detection) (faults : List (Option Fault))
  | drain (limit : Nat) (sends : NotificationChannel → RecordEventInput → Except Thrown Unit)
      (faults : List (Option Fault))
  /-- Rules and channels are edited. The deliveries of a channel go with it. -/
  | settle (rules : List NotificationRule) (channels : List NotificationChannel)
  | wait (milliseconds : Nat)

namespace AlertStore

def settle (store : AlertStore) (rules : List NotificationRule) (channels : List NotificationChannel) : AlertStore :=
  { store with
    rules
    channels
    deliveries := store.deliveries.remove fun delivery => ¬ ∃ channel ∈ channels, channel.id = delivery.channelId }

def next (table : CaseTable) (store : AlertStore) : AlertStep → AlertStore
  | .history instanceId rows faults => store.handleHistory table instanceId rows faults
  | .mirror tables => { store with mirror := { store.mirror with tables } }
  | .detect detection faults =>
    (performUnder (AlertStore.respond fun _ _ => .ok ()) NotificationCall.failed faults store
      (recordEvent table detection.input)).2.2
  | .drain limit sends faults =>
    (performUnder (AlertStore.respond sends) NotificationCall.failed faults store (RemoteSqlAgent.drain limit)).2.2
  | .settle rules channels => store.settle rules channels
  | .wait milliseconds => { store with clock := store.clock + milliseconds }

/-- The database after some steps. -/
def run (table : CaseTable) (store : AlertStore) (steps : List AlertStep) : AlertStore := steps.foldl (next table) store

theorem run_concat (table : CaseTable) (store : AlertStore) (steps : List AlertStep) (step : AlertStep) :
    store.run table (steps ++ [step]) = (store.run table steps).next table step := by
  rw [run, List.foldl_append]
  rfl

/-- Nothing happened yet. -/
structure Blank (store : AlertStore) : Prop where
  history : store.mirror.jobHistory.rows = []
  events : store.events.rows = []
  deliveries : store.deliveries.rows = []

end AlertStore

/-- A step stores an outcome. -/
structure NewOutcome (before after : AlertStore) (row : JobHistoryRow) : Prop where
  fresh : row ∉ before.mirror.jobHistory
  stored : row ∈ after.mirror.jobHistory
  outcome : row.stepId = 0

/-- The channels that rules name for the events of an outcome are there. -/
def Deliverable (table : CaseTable) (store : AlertStore) (row : JobHistoryRow) : Prop :=
  ∀ job ∈ store.jobContext row.instanceId row.jobUuid, ∀ kind ∈ row.run.kinds,
    store.Wired table (runEvent kind row.instanceId job row.run [])

instance (table : CaseTable) (store : AlertStore) (row : JobHistoryRow) : Decidable (Deliverable table store row) :=
  inferInstanceAs (Decidable (∀ job ∈ store.jobContext row.instanceId row.jobUuid, ∀ kind ∈ row.run.kinds, _))

/-- A batch brings an outcome that is not stored. -/
structure Brings (store : AlertStore) (instanceId : JsString) (rows : List HistoryRow)
    (row : JobHistoryRow) : Prop where
  offered : row ∈ historyValues instanceId rows
  free : ¬ store.mirror.jobHistory.Holds row.key
  outcome : row.stepId = 0

/-- What must hold of a batch that brings failures, unless its rows are not inserted:
nothing goes wrong in the handler, the jobs are mirrored, and the channels are there
for every outcome it brings. -/
def Sound (table : CaseTable) (store : AlertStore) : AlertStep → Prop
  | .history instanceId rows faults =>
    Undone faults ∨ ∀ row, Brings store instanceId rows row → row.runStatus = 0 →
      Faultless faults ∧ store.mirror.Mirrored row.job ∧
        ∀ other, Brings store instanceId rows other → other.runStatus = 0 ∨ other.runStatus = 1 →
          Deliverable table store other
  | _ => True

/-- The event tells of this row. -/
def Tells (row : JobHistoryRow) (event : NotificationEvent) : Prop :=
  event.input.kind = .job_failed ∧ event.dedupeKey = occurrence .job_failed row.instanceId row.run

instance (row : JobHistoryRow) (event : NotificationEvent) : Decidable (Tells row event) :=
  inferInstanceAs (Decidable (_ ∧ _))

/-- An enabled channel that a matching enabled rule names. -/
def Wanted (table : CaseTable) (store : AlertStore) (input : RecordEventInput) (channelId : JsString) : Prop :=
  (∃ channel ∈ store.channels, channel.id = channelId ∧ channel.enabled = true) ∧
    ∃ rule ∈ store.rules, rule.enabled = true ∧ rule.Matches table input ∧ channelId ∈ rule.channelIds

/-! ## What every step keeps -/

section Steps
variable {table : CaseTable} {store before after : AlertStore} {step : AlertStep}

/-- Events are of stored outcomes, or of another kind, and uuids are uuids. -/
structure Sane (store : AlertStore) : Prop where
  uuids : ∀ row ∈ store.mirror.jobHistory, ColonFree row.instanceId ∧ ColonFree row.jobUuid
  named : ∀ event ∈ store.events, ∃ rest, event.dedupeKey = event.input.kind.text ++ js ":" ++ rest
  told : ∀ event ∈ store.events, event.input.kind = .job_failed →
    ∃ row ∈ store.mirror.jobHistory, event.dedupeKey = occurrence .job_failed row.instanceId row.run

theorem Accepted.uuids {values : List JobHistoryRow} (accepted : Accepted values) {row : JobHistoryRow}
    (member : row ∈ values) : ColonFree row.instanceId ∧ ColonFree row.jobUuid := by
  have both := List.all_eq_true.mp accepted row member
  rw [Bool.and_eq_true] at both
  exact ⟨colonFree_of_columnTakes both.1, colonFree_of_columnTakes both.2⟩

/-- The event of a run is named by its kind. -/
theorem OfRun.named {instanceId : JsString} {run : IngestedRun} {input : RecordEventInput}
    (ofRun : OfRun instanceId run input) :
    ∃ rest, input.dedupeKey = input.kind.text ++ js ":" ++ rest :=
  ⟨_, ofRun.2.1.trans (occurrence_eq _ _ _)⟩

theorem sane_handled {instanceId : JsString} {rows : List HistoryRow} (sane : Sane store)
    (handled : Handled table store instanceId rows after) : Sane after := by
  have grows : ∀ row ∈ store.mirror.jobHistory, row ∈ after.mirror.jobHistory := by
    intro row member
    rcases handled.history with same | ⟨-, same⟩
    · rw [same]
      exact member
    · rw [same]
      exact KeyedTable.mem_insertNew.mpr (.inl member)
  refine ⟨fun row member => ?_, fun event member => ?_, fun event member failed => ?_⟩
  · rcases handled.history with same | ⟨accepted, same⟩
    · exact sane.uuids row (same ▸ member)
    · rw [same] at member
      rcases KeyedTable.mem_insertNew.mp member with before | inserted
      · exact sane.uuids row before
      · exact accepted.uuids (KeyedTable.mem_of_inserted inserted).1
  · rcases handled.recorded event member with before | ⟨row, -, -, -, ofRun⟩
    · exact sane.named event before
    · exact ofRun.named
  · rcases handled.recorded event member with before | ⟨row, there, place, -, ofRun⟩
    · obtain ⟨row, there, same⟩ := sane.told event before failed
      exact ⟨row, grows row there, same⟩
    · refine ⟨row, there, ?_⟩
      rw [place, ← failed]
      exact ofRun.2.1

/-- Recording elsewhere keeps the history. -/
theorem sane_recorded {wanted : RecordEventInput → Prop} (sane : Sane store) (records : RaisesOf wanted store after)
    (elsewhere : ∀ input, wanted input → input.kind ≠ .job_failed ∧
      ∃ rest, input.dedupeKey = input.kind.text ++ js ":" ++ rest) : Sane after := by
  refine ⟨records.mirror ▸ sane.uuids, fun event member => ?_, fun event member failed => ?_⟩
  · rcases records.asked event member with before | new
    · exact sane.named event before
    · exact (elsewhere _ new).2
  · rcases records.asked event member with before | new
    · exact records.mirror ▸ sane.told event before failed
    · exact absurd failed (elsewhere _ new).1

/-- What draining asks of the database. -/
def Drains : NotificationCall → Prop
  | .selectDue _ | .send .. | .markSent .. | .channelDelivered _ | .markFailed .. | .channelFailed .. => True
  | _ => False

/-- Draining changes neither events nor history, and keeps every delivery. -/
structure Drained (before after : AlertStore) : Prop where
  mirror : after.mirror = before.mirror
  events : after.events = before.events
  holds : ∀ key, after.deliveries.Holds key ↔ before.deliveries.Holds key

theorem holds_updateDelivery {key wanted : Nat × JsString} {change : NotificationDelivery → NotificationDelivery}
    (keeps : ∀ delivery, (change delivery).key = delivery.key) :
    (store.updateDelivery key change keeps).deliveries.Holds wanted ↔ store.deliveries.Holds wanted := by
  have same : ∀ delivery : NotificationDelivery,
      (if delivery.key = key then change delivery else delivery).key = delivery.key := by
    intro delivery
    split
    · exact keeps delivery
    · rfl
  simp only [AlertStore.updateDelivery, KeyedTable.holds_iff, KeyedTable.mem_modify]
  constructor
  · rintro ⟨-, ⟨held, member, rfl⟩, isKey⟩
    exact ⟨held, member, (same held).symm.trans isKey⟩
  · rintro ⟨held, member, isKey⟩
    exact ⟨_, ⟨held, member, rfl⟩, (same held).trans isKey⟩

theorem drained_respond (sends : NotificationChannel → RecordEventInput → Except Thrown Unit) (store : AlertStore)
    {call : NotificationCall} (drains : Drains call) : Drained store (store.respond sends call).2 := by
  cases call with
  | selectDue | send | channelDelivered | channelFailed => exact ⟨rfl, rfl, fun _ => Iff.rfl⟩
  | markSent | markFailed =>
    refine ⟨rfl, rfl, fun _ => holds_updateDelivery ?_⟩
    exact fun _ => rfl
  | insertEvent | selectRules | selectSent | insertDelivery | selectJobs | selectOutcomes | selectFailedStep =>
    exact drains.elim

private theorem within_drains_awaited {α : Type} (answer : Except Thrown α) : Within Drains (awaited answer) := by
  cases answer with
  | ok value => exact .done value
  | error thrown => exact .throw thrown

theorem within_deliverDue (due : Due) : Within Drains (deliverDue due) := by
  refine .tryCatch ?_ fun thrown => ?_
  · refine .call trivial fun sent : Except Thrown Unit => .bind (within_drains_awaited sent) fun _ => ?_
    refine .call trivial fun marked : Except Thrown Unit => .bind (within_drains_awaited marked) fun _ => ?_
    exact .call trivial fun updated : Except Thrown Unit => .bind (within_drains_awaited updated) fun _ => .done _
  · refine .call trivial fun marked : Except Thrown Unit => .bind (within_drains_awaited marked) fun _ => ?_
    exact .call trivial fun updated : Except Thrown Unit => .bind (within_drains_awaited updated) fun _ => .done _

theorem within_drain (limit : Nat) : Within Drains (drain limit) := by
  refine .call trivial fun selected : Except Thrown (List Due) => .bind (within_drains_awaited selected) fun due => ?_
  generalize 0 = sent
  induction due generalizing sent with
  | nil => exact .done sent
  | cons row rest ih =>
    rw [List.foldlM_cons]
    exact .bind (.bind (within_deliverDue row) fun _ => .done _) ih

theorem drained_drain (table : CaseTable) (store : AlertStore) (limit : Nat)
    (sends : NotificationChannel → RecordEventInput → Except Thrown Unit)
    (faults : List (Option Fault)) : Drained store (store.next table (.drain limit sends faults)) := by
  refine performUnder_keeps (within_drain limit) (fun now call drains drained => ?_) ⟨rfl, rfl, fun _ => Iff.rfl⟩
  have step := drained_respond sends now drains
  exact ⟨step.mirror.trans drained.mirror, step.events.trans drained.events,
    fun key => (step.holds key).trans (drained.holds key)⟩

theorem recorded_detect (detection : Detection) (faults : List (Option Fault)) :
    RaisesOf (detection.input = ·) store (store.next table (.detect detection faults)) :=
  recordsOf_performUnder (within_recordEvent (show detection.input = detection.input from rfl)) _ _ _ _

theorem Detection.kind (detection : Detection) : detection.input.kind ≠ .job_failed :=
  fun same => detection.elsewhere (same ▸ List.mem_cons_self)

theorem sane_next (sane : Sane store) (step : AlertStep) : Sane (store.next table step) := by
  cases step with
  | history instanceId rows faults => exact sane_handled sane (handled_handleHistory table store instanceId rows faults)
  | mirror tables => exact ⟨sane.uuids, sane.named, sane.told⟩
  | detect detection faults =>
    refine sane_recorded sane (recorded_detect detection faults) fun input same => ?_
    subst same
    exact ⟨detection.kind, detection.rest, detection.named⟩
  | drain limit sends faults =>
    have drained := drained_drain table store limit sends faults
    refine ⟨?_, ?_, ?_⟩
    · rw [drained.mirror]
      exact sane.uuids
    · rw [drained.events]
      exact sane.named
    · rw [drained.events, drained.mirror]
      exact sane.told
  | settle rules channels => exact ⟨sane.uuids, sane.named, sane.told⟩
  | wait milliseconds => exact ⟨sane.uuids, sane.named, sane.told⟩

/-- The step does not remove the channel. -/
def Spares (channelId : JsString) (step : AlertStep) : Prop :=
  ∀ rules channels, step = .settle rules channels → ∃ channel ∈ channels, channel.id = channelId

/-- What was recorded stays. -/
theorem events_next (step : AlertStep) {event : NotificationEvent} (member : event ∈ store.events) :
    event ∈ (store.next table step).events := by
  cases step with
  | history instanceId rows faults =>
    exact (handled_handleHistory table store instanceId rows faults).events.subset member
  | detect detection faults => exact (recorded_detect detection faults).events.subset member
  | drain limit sends faults =>
    rw [(drained_drain table store limit sends faults).events]
    exact member
  | mirror tables | settle rules channels | wait milliseconds => exact member

/-- A delivery stays as long as its channel does. -/
theorem deliveries_next (step : AlertStep) {eventId : Nat} {channelId : JsString} (spares : Spares channelId step)
    (held : store.deliveries.Holds (eventId, channelId)) :
    (store.next table step).deliveries.Holds (eventId, channelId) := by
  obtain ⟨delivery, member, same⟩ := KeyedTable.holds_iff.mp held
  cases step with
  | history instanceId rows faults =>
    have handled := handled_handleHistory table store instanceId rows faults
    exact KeyedTable.holds_iff.mpr ⟨delivery, handled.deliveries.subset member, same⟩
  | detect detection faults => exact (recorded_detect detection faults).holds held
  | drain limit sends faults => exact ((drained_drain table store limit sends faults).holds _).mpr held
  | settle rules channels =>
    refine KeyedTable.holds_iff.mpr ⟨delivery, KeyedTable.mem_remove.mpr ⟨member, ?_⟩, same⟩
    obtain ⟨channel, there, isChannel⟩ := spares rules channels rfl
    have own : delivery.channelId = channelId := congrArg Prod.snd same
    exact decide_eq_false fun none_ => none_ ⟨channel, there, isChannel.trans own.symm⟩
  | mirror tables | wait milliseconds => exact held

/-- Only a batch brings history. -/
theorem history_next {row : JobHistoryRow} (fresh : row ∉ store.mirror.jobHistory)
    (stored : row ∈ (store.next table step).mirror.jobHistory) : ∃ instanceId rows faults,
    step = .history instanceId rows faults := by
  cases step with
  | history instanceId rows faults => exact ⟨instanceId, rows, faults, rfl⟩
  | detect detection faults => exact absurd ((recorded_detect detection faults).mirror ▸ stored) fresh
  | drain limit sends faults => exact absurd ((drained_drain table store limit sends faults).mirror ▸ stored) fresh
  | mirror tables | settle rules channels | wait milliseconds => exact absurd stored fresh

/-! ## What a sound step tells -/

/-- The new runs of a batch are those of outcomes it stores. -/
theorem mem_newRuns {instanceId : JsString} {rows : List HistoryRow} {run : IngestedRun}
    (history : after.mirror.jobHistory = (store.mirror.jobHistory.insertNew (historyValues instanceId rows)).1)
    (isNew : run ∈ newRuns store instanceId rows) : ∃ row, NewOutcome store after row ∧ row.run = run ∧
      row.instanceId = instanceId ∧ row ∈ historyValues instanceId rows := by
  obtain ⟨row, inside, rfl⟩ := List.mem_map.mp isNew
  obtain ⟨inserted, isOutcome⟩ := List.mem_filter.mp inside
  obtain ⟨offered, free⟩ := KeyedTable.mem_of_inserted inserted
  refine ⟨row, ⟨fun held => free (KeyedTable.holds_of_mem held), ?_, of_decide_eq_true isOutcome⟩, rfl,
    instanceId_of_historyValue offered, offered⟩
  rw [history]
  exact KeyedTable.mem_insertNew.mpr (.inr inserted)

theorem distinct_newRuns (store : AlertStore) (instanceId : JsString) (rows : List HistoryRow) :
    ((newRuns store instanceId rows).map (·.sqlInstanceId)).Nodup := by
  rw [newRuns, List.map_map]
  have keys : ((store.mirror.jobHistory.insertNew (historyValues instanceId rows)).2.map JobHistoryRow.key).Nodup :=
    KeyedTable.nodup_inserted
  have some_ :=
    keys.sublist (List.filter_sublist (p := fun row : JobHistoryRow => row.stepId = 0).map JobHistoryRow.key)
  rw [List.nodup_map_iff_inj_on some_.of_map]
  intro a first b second same
  have place : ∀ {row}, row ∈ (store.mirror.jobHistory.insertNew (historyValues instanceId rows)).2.filter
      (fun row => row.stepId = 0) → row.instanceId = instanceId := fun member =>
    instanceId_of_historyValue (KeyedTable.mem_of_inserted (List.mem_filter.mp member).1).1
  refine List.inj_on_of_nodup_map some_ first second (Prod.ext ?_ same)
  exact (place first).trans (place second).symm

/-- What a batch stores it brings, and its rows were inserted. -/
theorem brings_of_new {instanceId : JsString} {rows : List HistoryRow} {faults : List (Option Fault)}
    {row : JobHistoryRow}
    (new : NewOutcome store (store.handleHistory table instanceId rows faults) row) :
    Brings store instanceId rows row ∧ ¬ Undone faults := by
  have there := new.stored
  constructor
  · rcases (handled_handleHistory table store instanceId rows faults).history with same | ⟨-, same⟩
    · rw [same] at there
      exact absurd there new.fresh
    · rw [same] at there
      obtain ⟨offered, free⟩ := KeyedTable.mem_of_inserted ((KeyedTable.mem_insertNew.mp there).resolve_left new.fresh)
      exact ⟨offered, free, new.outcome⟩
  · intro undone
    rw [handleHistory_undone undone] at there
    exact new.fresh there

/-- What was not stored before was not told. -/
theorem untold (sane : Sane store) {row : JobHistoryRow} (free : ¬ store.mirror.jobHistory.Holds row.key)
    (place : ColonFree row.instanceId) (uuid : ColonFree row.jobUuid) :
    ¬ store.events.Holds (occurrence .job_failed row.instanceId row.run) := by
  intro held
  obtain ⟨event, member, same⟩ := KeyedTable.holds_iff.mp held
  obtain ⟨rest, named⟩ := sane.named event member
  have kind := kind_of_occurrence (same.symm.trans named)
  obtain ⟨other, there, told⟩ := sane.told event member kind.symm
  obtain ⟨otherPlace, otherUuid⟩ := sane.uuids other there
  obtain ⟨-, instances, -, ids⟩ := occurrence_inj place otherPlace uuid otherUuid (same.symm.trans told)
  refine free (KeyedTable.holds_iff.mpr ⟨other, there, Prod.ext instances.symm ids.symm⟩)

/-- The store after an ingestion tells the same people, under the same names. -/
theorem Stored.wired {values : List JobHistoryRow} (stored : Stored store values after) {input : RecordEventInput} :
    after.Wired table input ↔ store.Wired table input := by
  rw [stored.settled]
  exact Iff.rfl

theorem Stored.targets {values : List JobHistoryRow} (stored : Stored store values after) (input : RecordEventInput) :
    after.targets table input = store.targets table input := by
  rw [stored.settled]
  rfl

theorem Stored.jobContext {values : List JobHistoryRow} (stored : Stored store values after)
    (instanceId jobUuid : JsString) :
    after.jobContext instanceId jobUuid = store.jobContext instanceId jobUuid := by
  unfold AlertStore.jobContext
  rw [stored.tables, stored.settled]

/-- A sound batch tells of each failure it stores, on every channel. -/
theorem told_handleHistory (sane : Sane store) {instanceId : JsString} {rows : List HistoryRow}
    {faults : List (Option Fault)} (quiet : Faultless faults) {row : JobHistoryRow}
    (new : NewOutcome store (store.handleHistory table instanceId rows faults) row) (failed : row.runStatus = 0)
    (mirrored : store.mirror.Mirrored row.job)
    (deliverable : ∀ other, NewOutcome store (store.handleHistory table instanceId rows faults) other →
      other.runStatus = 0 ∨ other.runStatus = 1 → Deliverable table store other) :
    ∃ event ∈ (store.handleHistory table instanceId rows faults).events, Tells row event ∧
      ∀ channelId, Wanted table store event.input channelId →
        (store.handleHistory table instanceId rows faults).deliveries.Holds (event.id, channelId) := by
  have changed : (store.handleHistory table instanceId rows faults).mirror.jobHistory ≠ store.mirror.jobHistory :=
    fun same => new.fresh (same ▸ new.stored)
  obtain ⟨between, stored, accepted, history, whole⟩ := handleHistory_quiet quiet changed
  have mirror : (store.handleHistory table instanceId rows faults).mirror = between.mirror := by
    rw [whole]
    exact (records_recordAll table _ between _).mirror
  have after : (store.handleHistory table instanceId rows faults).mirror.jobHistory =
      (store.mirror.jobHistory.insertNew (historyValues instanceId rows)).1 := by
    rw [mirror, history]
  have inserted : row ∈ (store.mirror.jobHistory.insertNew (historyValues instanceId rows)).2 := by
    have there := new.stored
    rw [after] at there
    exact (KeyedTable.mem_insertNew.mp there).resolve_left new.fresh
  obtain ⟨offered, free⟩ := KeyedTable.mem_of_inserted inserted
  have place : row.instanceId = instanceId := instanceId_of_historyValue offered
  obtain ⟨colonFree, uuid⟩ := accepted.uuids offered
  -- The event of the row is among those of the batch, and nothing like it was recorded.
  have isNew : row.run ∈ outcomesOf (newRuns store instanceId rows) := by
    refine List.mem_filter.mpr ⟨List.mem_map.mpr ⟨row, List.mem_filter.mpr ⟨inserted, ?_⟩, rfl⟩, ?_⟩
    · exact decide_eq_true new.outcome
    · exact decide_eq_true (.inl failed)
  obtain ⟨job, context⟩ : ∃ job, between.jobContext instanceId row.run.jobUuid = some job := by
    rw [stored.jobContext, ← place]
    exact Option.isSome_iff_exists.mp (by rw [AlertStore.jobContext, Option.isSome_map]; exact mirrored)
  obtain ⟨context', inRun⟩ := failedEvent_mem failed context
  have inBatch := List.mem_flatMap.mpr ⟨row.run, isNew, inRun⟩
  have fresh : ¬ between.events.Holds (failedEvent instanceId job row.run context').dedupeKey := by
    rw [stored.rest.2.2.1]
    change ¬ store.events.Holds (occurrence .job_failed instanceId row.run)
    rw [← place]
    exact untold sane free colonFree uuid
  -- No two events of the batch are of one occurrence, and all have their channels.
  have distinct : (((outcomesOf (newRuns store instanceId rows)).flatMap (between.runEvents instanceId)).map
      (·.dedupeKey)).Nodup := by
    refine nodup_batch (place ▸ colonFree) (fun run member => ?_) ?_
    · obtain ⟨other, -, rfl, -, given⟩ := mem_newRuns after (List.mem_of_mem_filter member)
      exact (accepted.uuids given).2
    · exact (distinct_newRuns store instanceId rows).sublist (List.filter_sublist.map _)
  have wired : ∀ input ∈ (outcomesOf (newRuns store instanceId rows)).flatMap (between.runEvents instanceId),
      between.Wired table input := by
    intro input member
    obtain ⟨run, isRun, inEvents⟩ := List.mem_flatMap.mp member
    obtain ⟨reported, outcome⟩ := List.mem_filter.mp isRun
    obtain ⟨other, otherNew, rfl, otherPlace, -⟩ := mem_newRuns after reported
    obtain ⟨told, context, kind, isKind, particular, rfl⟩ := mem_runEvents inEvents
    rw [stored.wired, wired_runEvent, ← otherPlace]
    refine deliverable other otherNew (of_decide_eq_true outcome) told ?_ kind isKind
    rw [← stored.jobContext, otherPlace]
    exact context
  obtain ⟨-, told⟩ := recordAll_wired (fun _ _ => .ok ()) distinct wired
  obtain ⟨event, member, isInput, delivered⟩ := told _ inBatch fresh
  rw [whole]
  refine ⟨event, member, ?_, fun channelId wanted => delivered channelId ?_⟩
  · rw [Tells, NotificationEvent.dedupeKey, isInput, place]
    exact ⟨rfl, rfl⟩
  · rw [← isInput, stored.targets, mem_targets]
    exact wanted.2

/-! ## Runs -/

theorem AlertStore.Blank.no_row {start : AlertStore} (blank : start.Blank) (row : JobHistoryRow) :
    row ∉ start.mirror.jobHistory := by
  rw [KeyedTable.mem_iff, blank.history]
  exact List.not_mem_nil

theorem AlertStore.Blank.no_event {start : AlertStore} (blank : start.Blank) (event : NotificationEvent) :
    event ∉ start.events := by
  rw [KeyedTable.mem_iff, blank.events]
  exact List.not_mem_nil

theorem sane_run {start : AlertStore} (blank : start.Blank) (steps : List AlertStep) :
    Sane (start.run table steps) := by
  induction steps using List.reverseRecOn with
  | nil =>
    exact ⟨fun row member => absurd member (blank.no_row row), fun event member => absurd member (blank.no_event event),
      fun event member => absurd member (blank.no_event event)⟩
  | append_singleton steps step ih =>
    rw [AlertStore.run_concat]
    exact sane_next ih step

end Steps

/-- The deliveries of an event on a channel. -/
def AlertStore.deliveriesOf (store : AlertStore) (eventId : Nat) (channelId : JsString) : List NotificationDelivery :=
  store.deliveries.rows.filter fun delivery => delivery.key = (eventId, channelId)

/-- **Every failed outcome that is stored has exactly one event, and that has
exactly one delivery for each enabled channel of a matching rule**, in every run
whose steps are sound. Which rules and channels there are is that of the step that
stored the outcome, and a delivery stays as long as its channel. -/
theorem failures_alerted (table : CaseTable) {start : AlertStore} (blank : start.Blank) {steps : List AlertStep}
    (sound : ∀ earlier step later, steps = earlier ++ step :: later → Sound table (start.run table earlier) step) :
    ∀ row ∈ (start.run table steps).mirror.jobHistory, row.stepId = 0 → row.runStatus = 0 →
      ∃ event ∈ (start.run table steps).events, Tells row event ∧
        (∀ other ∈ (start.run table steps).events, Tells row other → other = event) ∧
        ∃ earlier step later, steps = earlier ++ step :: later ∧
          NewOutcome (start.run table earlier) ((start.run table earlier).next table step) row ∧
          ∀ channelId, Wanted table (start.run table earlier) event.input channelId →
            (∀ step ∈ later, Spares channelId step) →
              ((start.run table steps).deliveriesOf event.id channelId).length = 1 := by
  have recorded : ∀ row ∈ (start.run table steps).mirror.jobHistory, row.stepId = 0 → row.runStatus = 0 →
      ∃ event ∈ (start.run table steps).events, Tells row event ∧
        ∃ earlier step later, steps = earlier ++ step :: later ∧
          NewOutcome (start.run table earlier) ((start.run table earlier).next table step) row ∧
          ∀ channelId, Wanted table (start.run table earlier) event.input channelId →
            (∀ step ∈ later, Spares channelId step) →
              (start.run table steps).deliveries.Holds (event.id, channelId) := by
    induction steps using List.reverseRecOn with
    | nil =>
      intro row member
      exact absurd member (blank.no_row row)
    | append_singleton steps step ih =>
      intro row member outcome failed
      have before := ih fun earlier step' later split => sound earlier step' (later ++ [step]) (by rw [split]; simp)
      rw [AlertStore.run_concat] at member ⊢
      by_cases held : row ∈ (start.run table steps).mirror.jobHistory
      · obtain ⟨event, there, tells, earlier, step', later, rfl, new, delivered⟩ := before row held outcome failed
        refine ⟨event, events_next step there, tells, earlier, step', later ++ [step], by simp, new, ?_⟩
        intro channelId wanted spared
        refine deliveries_next step (spared step (by simp)) (delivered channelId wanted fun other inside => ?_)
        exact spared other (List.mem_append_left _ inside)
      · have new : NewOutcome (start.run table steps) ((start.run table steps).next table step) row :=
          ⟨held, member, outcome⟩
        obtain ⟨instanceId, rows, faults, rfl⟩ := history_next held member
        obtain ⟨brings, done⟩ := brings_of_new new
        obtain ⟨quiet, mirrored, deliverable⟩ := (sound steps _ [] rfl).resolve_left done row brings failed
        obtain ⟨event, there, tells, delivered⟩ := told_handleHistory (sane_run blank steps) quiet new failed mirrored
          fun other new outcome => deliverable other (brings_of_new new).1 outcome
        exact ⟨event, there, tells, steps, _, [], rfl, new, fun channelId wanted _ => delivered channelId wanted⟩
  intro row member outcome failed
  obtain ⟨event, there, tells, earlier, step, later, split, new, delivered⟩ := recorded row member outcome failed
  refine ⟨event, there, tells, fun other also same => ?_, earlier, step, later, split, new,
    fun channelId wanted spared => ?_⟩
  · exact KeyedTable.eq_of_key also there (same.2.trans tells.2.symm)
  · obtain ⟨delivery, inside, isKey⟩ := KeyedTable.holds_iff.mp (delivered channelId wanted spared)
    rw [AlertStore.deliveriesOf, ← isKey, KeyedTable.filter_key inside]
    rfl

/-! ## A sample -/

/-- An outcome of a sample job. -/
def alertRun (id runStatus : Int) : HistoryRow := { sampleRun id 0 runStatus with jobUuid := js "b1" }

/-- One rule for all failures, with one channel, and nothing else yet. -/
def alertStore : AlertStore where
  mirror := .empty
  instanceName _ := js "MSSQLSERVER"
  hostName _ := js "sqlprod01"
  rules := [⟨js "r1", true, [.job_failed, .job_recovered], [], none, [js "c1"], 60⟩]
  channels := [⟨js "c1", true, none, none, none⟩]
  events := .empty
  deliveries := .empty
  clock := 1700001000000

theorem alertStore_blank : alertStore.Blank := ⟨rfl, rfl, rfl⟩

/-- The sample job is mirrored. -/
def alertTables : JobTables where
  jobs key := if key = ⟨js "a1", js "b1"⟩ then
    some ⟨js "Backup", true, none, none, none, 1, none, false, none, none, 0⟩ else none
  jobVersions _ := []

/-- A batch after the snapshot of its job. -/
def alertSteps : List AlertStep := [.mirror alertTables, .history (js "a1") [alertRun 1 0] []]

theorem sample_alerted : ∃ row ∈ (alertStore.run basicTable alertSteps).mirror.jobHistory,
    ∃ event ∈ (alertStore.run basicTable alertSteps).events, Tells row event := by
  have brought : ∀ row ∈ historyValues (js "a1") [alertRun 1 0],
      (alertStore.run basicTable [.mirror alertTables]).mirror.Mirrored row.job ∧
        Deliverable basicTable (alertStore.run basicTable [.mirror alertTables]) row := by
    decide +kernel
  have sound : ∀ earlier step later, alertSteps = earlier ++ step :: later →
      Sound basicTable (alertStore.run basicTable earlier) step := by
    intro earlier step later split
    rcases earlier with _ | ⟨first, _ | ⟨second, rest⟩⟩
    · cases split
      trivial
    · cases split
      exact .inr fun row brings _ => ⟨by decide, (brought row brings.offered).1, fun other brings _ =>
        (brought other brings.offered).2⟩
    · simp [alertSteps] at split
  obtain ⟨row, member, outcome, failed⟩ : ∃ row ∈ (alertStore.run basicTable alertSteps).mirror.jobHistory.rows,
      row.stepId = 0 ∧ row.runStatus = 0 := by
    decide +kernel
  obtain ⟨event, there, tells, -⟩ := failures_alerted basicTable alertStore_blank sound row member outcome failed
  exact ⟨row, member, event, there, tells⟩

/-- **Counterexample.** An outcome that is stored before its job is mirrored is
never told, although the batch comes again and nothing went wrong. -/
theorem unmirrored_untold :
    ∃ row ∈ (alertStore.run basicTable [.history (js "a1") [alertRun 1 0] [], .mirror alertTables,
        .history (js "a1") [alertRun 1 0] []]).mirror.jobHistory.rows,
      row.stepId = 0 ∧ row.runStatus = 0 ∧
        ¬ ∃ event ∈ (alertStore.run basicTable [.history (js "a1") [alertRun 1 0] [], .mirror alertTables,
          .history (js "a1") [alertRun 1 0] []]).events.rows, Tells row event := by
  decide +kernel

end RemoteSqlAgent
