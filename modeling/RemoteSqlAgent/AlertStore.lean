import RemoteSqlAgent.JsArray
import RemoteSqlAgent.Notifications

/-! The database under the notifications, and what recording an event leaves in
it. An event that is new gets its deliveries, one for each channel that a matching
rule names, up to a channel that is not there. -/
namespace RemoteSqlAgent
open Js CallProgram

/-- What the control plane holds of notifications, beside its mirror. -/
structure AlertStore where
  mirror : MirrorStore
  instanceName : JsString → JsString
  hostName : JsString → JsString
  rules : List NotificationRule
  channels : List NotificationChannel
  events : KeyedTable NotificationEvent.dedupeKey
  deliveries : KeyedTable NotificationDelivery.key
  /-- In milliseconds. -/
  clock : Int

/-- What a column of uuids takes: digits, letters up to f, hyphens and braces. -/
def columnTakes (text : JsString) : Bool :=
  text.all fun unit => isDigit unit || (0x41 ≤ unit.val && unit.val ≤ 0x46) || (0x61 ≤ unit.val && unit.val ≤ 0x66) ||
    unit.val = 0x2D || unit.val = 0x7B || unit.val = 0x7D

namespace AlertStore

/-- The answer to a statement of the ingestion. -/
def respondHistory (store : AlertStore) : (call : HistoryCall) → HistoryAnswer call × AlertStore
  | .insertHistory values =>
    if values.all fun value => columnTakes value.instanceId && columnTakes value.jobUuid then
      (.ok (store.mirror.jobHistory.insertNew values).2, { store with mirror := store.mirror.insertHistory values })
    else (.error (js "invalid input syntax for type uuid"), store)
  | .raiseHighWaterMark instanceId mark =>
    (.ok (), { store with mirror := store.mirror.raiseHighWaterMark instanceId mark })
  | .selectHighWaterMark instanceId => (.ok ((store.mirror.syncState instanceId).getD 0), store)
  | .selectLatest job => (.ok ((store.mirror.latest job).map (·.lastRun)), store)
  | .updateLastRun job latest => (.ok (), { store with mirror := store.mirror.setLastRun job latest })

/-- Some minutes, in milliseconds. -/
def window (minutes : Nat) : Int := minutes * 60 * 1000

def RecentlySent (store : AlertStore) (channelId throttleKey : JsString) (minutes : Nat) : Prop :=
  ∃ delivery ∈ store.deliveries.rows, delivery.channelId = channelId ∧ delivery.throttleKey = throttleKey ∧
    delivery.state = .sent ∧ ∃ sentAt ∈ delivery.sentAt, store.clock - window minutes ≤ sentAt

instance (store : AlertStore) (channelId throttleKey : JsString) (minutes : Nat) :
    Decidable (store.RecentlySent channelId throttleKey minutes) :=
  inferInstanceAs (Decidable (∃ delivery ∈ store.deliveries.rows, _ ∧ _ ∧ _ ∧ ∃ sentAt ∈ delivery.sentAt, _))

def HasChannel (store : AlertStore) (channelId : JsString) : Prop := ∃ channel ∈ store.channels, channel.id = channelId

instance (store : AlertStore) (channelId : JsString) : Decidable (store.HasChannel channelId) :=
  inferInstanceAs (Decidable (∃ channel ∈ store.channels, _))

def insertEvent (store : AlertStore) (input : RecordEventInput) : Option Nat × AlertStore :=
  if taken : store.events.Holds input.dedupeKey then (none, store)
  else (some store.events.rows.length,
    { store with events := store.events.add ⟨store.events.rows.length, input⟩ taken })

/-- A delivery for a channel that is not there violates a foreign key. -/
def insertDelivery (store : AlertStore) (delivery : NotificationDelivery) : Except Thrown Unit × AlertStore :=
  if taken : store.deliveries.Holds delivery.key then (.ok (), store)
  else if store.HasChannel delivery.channelId then
    (.ok (), { store with deliveries := store.deliveries.add delivery taken })
  else (.error (.error (js "insert or update on table violates foreign key constraint")), store)

/-- A job of an instance, if it is there. -/
def jobContext (store : AlertStore) (instanceId jobUuid : JsString) : Option JobContext :=
  (store.mirror.tables.jobs ⟨instanceId, jobUuid⟩).map fun row =>
    ⟨jobUuid, row.name, store.instanceName instanceId, store.hostName instanceId⟩

/-- Rows of history of a job up to an outcome, the latest first. -/
def upTo (store : AlertStore) (job : JobKey) (sqlInstanceId : Int) (kind : JobHistoryRow → Bool) : List JobHistoryRow :=
  sortBy (fun a b : JobHistoryRow => b.sqlInstanceId - a.sqlInstanceId)
    (store.mirror.jobHistory.rows.filter fun row => row.job = job ∧ row.sqlInstanceId ≤ sqlInstanceId ∧ kind row)

/-- Change one delivery. -/
def updateDelivery (store : AlertStore) (key : Nat × JsString) (change : NotificationDelivery → NotificationDelivery)
    (keeps : ∀ delivery, (change delivery).key = delivery.key) : AlertStore :=
  { store with
    deliveries := store.deliveries.modify (fun delivery => if delivery.key = key then change delivery else delivery)
      fun delivery => by
        split
        · exact keeps delivery
        · rfl }

def updateChannel (store : AlertStore) (id : JsString) (change : NotificationChannel → NotificationChannel) :
    AlertStore :=
  { store with channels := store.channels.map fun channel => if channel.id = id then change channel else channel }

/-- What is to be sent now, with the events and the channels that are there. -/
def due (store : AlertStore) (limit : Nat) : List Due :=
  let pending := store.deliveries.rows.filter fun delivery =>
    delivery.state = .pending ∧ delivery.nextAttemptAt ≤ store.clock
  let joined := pending.flatMap fun delivery =>
    (store.events.rows.filter (·.id = delivery.eventId)).flatMap fun event =>
      (store.channels.filter fun channel => channel.id = delivery.channelId ∧ channel.enabled).map fun channel =>
        ⟨delivery, event, channel⟩
  (sortBy (fun a b : Due => a.delivery.nextAttemptAt - b.delivery.nextAttemptAt) joined).take limit

/-- The answer to a statement of the notifications, and how sending ends. -/
def respond (sends : NotificationChannel → RecordEventInput → Except Thrown Unit) (store : AlertStore) :
    (call : NotificationCall) → NotificationAnswer call × AlertStore
  | .insertEvent input => (.ok (store.insertEvent input).1, (store.insertEvent input).2)
  | .selectRules => (.ok (store.rules.filter (·.enabled)), store)
  | .selectSent channelId throttleKey minutes => (.ok (store.RecentlySent channelId throttleKey minutes), store)
  | .insertDelivery eventId ruleId channelId throttleKey state lastError =>
    store.insertDelivery ⟨eventId, ruleId, channelId, throttleKey, state, 0, lastError, store.clock, none⟩
  | .selectJobs instanceId jobUuids => (.ok (jobUuids.filterMap (store.jobContext instanceId)), store)
  | .selectOutcomes job sqlInstanceId limit =>
    (.ok (((store.upTo job sqlInstanceId fun row => row.stepId = 0).take limit).map (·.runStatus)), store)
  | .selectFailedStep job sqlInstanceId =>
    (.ok ((store.upTo job sqlInstanceId fun row =>
      row.stepId ≠ 0 ∧ row.runStatus = 0 ∧ row.sqlInstanceId > sqlInstanceId - 200).head?.map (·.stepName)), store)
  | .selectDue limit => (.ok (store.due limit), store)
  | .send channel event => (sends channel event, store)
  | .markSent key attempts =>
    (.ok (), store.updateDelivery key
      (fun delivery => { delivery with
        state := .sent, sentAt := some store.clock, attempts := attempts, lastError := none })
      fun _ => rfl)
  | .channelDelivered id =>
    (.ok (), store.updateChannel id fun channel => { channel with
      lastDeliveredAt := some store.clock, lastError := none, lastErrorAt := none })
  | .markFailed key state attempts lastError delay =>
    (.ok (), store.updateDelivery key
      (fun delivery => { delivery with
        state := state, attempts := attempts, lastError := some lastError, nextAttemptAt := store.clock + delay })
      fun _ => rfl)
  | .channelFailed id lastError =>
    (.ok (), store.updateChannel id fun channel => { channel with
      lastError := some lastError, lastErrorAt := some store.clock })

end AlertStore

/-! ## What recording leaves -/

section Recording
variable {store before after : AlertStore} {sends : NotificationChannel → RecordEventInput → Except Thrown Unit}

/-- Only events and deliveries were added. -/
structure Raises (before after : AlertStore) : Prop where
  settled : after = { before with events := after.events, deliveries := after.deliveries }
  events : before.events.rows <+: after.events.rows
  deliveries : before.deliveries.rows <+: after.deliveries.rows

theorem Raises.refl (store : AlertStore) : Raises store store := ⟨rfl, List.prefix_rfl, List.prefix_rfl⟩

theorem Raises.trans {between : AlertStore} (first : Raises before between) (second : Raises between after) :
    Raises before after := by
  refine ⟨?_, first.events.trans second.events, first.deliveries.trans second.deliveries⟩
  rw [second.settled, first.settled]

theorem Raises.hasChannel (records : Raises before after) {channelId : JsString} :
    after.HasChannel channelId ↔ before.HasChannel channelId := by
  rw [records.settled]
  rfl

theorem Raises.rules (records : Raises before after) : after.rules = before.rules := by
  rw [records.settled]

theorem Raises.mirror (records : Raises before after) : after.mirror = before.mirror := by
  rw [records.settled]

theorem Raises.holds (records : Raises before after) {key : Nat × JsString} (held : before.deliveries.Holds key) :
    after.deliveries.Holds key := by
  obtain ⟨delivery, member, same⟩ := KeyedTable.holds_iff.mp held
  exact KeyedTable.holds_iff.mpr ⟨delivery, records.deliveries.subset member, same⟩

theorem records_insertDelivery (store : AlertStore) (delivery : NotificationDelivery) :
    Raises store (store.insertDelivery delivery).2 := by
  unfold AlertStore.insertDelivery
  split
  · exact .refl store
  · split
    · exact ⟨rfl, List.prefix_rfl, List.prefix_append _ _⟩
    · exact .refl store

theorem records_insertEvent (store : AlertStore) (input : RecordEventInput) :
    Raises store (store.insertEvent input).2 := by
  unfold AlertStore.insertEvent
  split
  · exact .refl store
  · exact ⟨rfl, List.prefix_append _ _, List.prefix_rfl⟩

/-- What recording asks of the database, for events of a kind. -/
def Asks (events : RecordEventInput → Prop) : NotificationCall → Prop
  | .insertEvent input => events input
  | .selectRules | .selectSent .. | .insertDelivery .. | .selectJobs .. | .selectOutcomes ..
  | .selectFailedStep .. => True
  | _ => False

theorem records_respond {events : RecordEventInput → Prop} {call : NotificationCall} (asks : Asks events call) :
    Raises store (store.respond sends call).2 := by
  cases call with
  | insertEvent input => exact records_insertEvent store input
  | insertDelivery => exact records_insertDelivery store _
  | selectRules | selectSent | selectJobs | selectOutcomes | selectFailedStep => exact .refl store
  | selectDue | send | markSent | channelDelivered | markFailed | channelFailed => exact asks.elim

/-- An event that is there afterwards was there, or was asked for. -/
theorem events_respond {events : RecordEventInput → Prop} {call : NotificationCall} (asks : Asks events call)
    {event : NotificationEvent} (member : event ∈ (store.respond sends call).2.events) :
    event ∈ store.events ∨ events event.input := by
  cases call with
  | insertEvent input =>
    change event ∈ (store.insertEvent input).2.events at member
    unfold AlertStore.insertEvent at member
    split at member
    · exact .inl member
    · rcases List.mem_append.mp member with before | new
      · exact .inl before
      · exact .inr (List.mem_singleton.mp new ▸ asks)
  | insertDelivery eventId ruleId channelId throttleKey state lastError =>
    change event ∈ (store.insertDelivery _).2.events at member
    unfold AlertStore.insertDelivery at member
    split at member
    · exact .inl member
    · split at member <;> exact .inl member
  | selectRules | selectSent | selectJobs | selectOutcomes | selectFailedStep => exact .inl member
  | selectDue | send | markSent | channelDelivered | markFailed | channelFailed => exact asks.elim

/-- Only these events were added, and deliveries. -/
structure RaisesOf (wanted : RecordEventInput → Prop) (before after : AlertStore) : Prop
    extends Raises before after where
  asked : ∀ event ∈ after.events, event ∈ before.events ∨ wanted event.input

/-- Whatever goes wrong, recording only adds, and only events that were asked for. -/
theorem recordsOf_performUnder {α : Type} {events : RecordEventInput → Prop} {program : NotificationProgram α}
    (only : Within (Asks events) program) (sends : NotificationChannel → RecordEventInput → Except Thrown Unit)
    (failed : ∀ call, NotificationAnswer call) (faults : List (Option Fault)) (store : AlertStore) :
    RaisesOf events store (performUnder (AlertStore.respond sends) failed faults store program).2.2 := by
  refine performUnder_keeps only (fun now call asks kept => ?_) ⟨.refl store, fun _ member => .inl member⟩
  exact ⟨kept.toRaises.trans (records_respond asks), fun event member =>
    (events_respond asks member).elim (kept.asked event) .inr⟩

theorem perform_awaited {α : Type} (answer : Except Thrown α) (store : AlertStore) :
    perform (AlertStore.respond sends) store (awaited answer) = (answer, store) := by
  cases answer <;> rfl

theorem within_awaited {α : Type} {events : RecordEventInput → Prop} (answer : Except Thrown α) :
    Within (Asks events) (awaited answer) := by
  cases answer with
  | ok value => exact .done value
  | error thrown => exact .throw thrown

theorem within_queueDelivery {events : RecordEventInput → Prop} (eventId : Nat) (throttleKey channelId : JsString)
    (target : Target) : Within (Asks events) (queueDelivery eventId throttleKey channelId target) := by
  have last : ∀ (state : NotificationDeliveryState) (lastError : Option JsString), Within (Asks events)
      (.call (.insertDelivery eventId target.ruleId channelId throttleKey state lastError)
        fun inserted : Except Thrown Unit => awaited inserted : NotificationProgram Unit) :=
    fun _ _ => .call trivial fun inserted : Except Thrown Unit => within_awaited inserted
  refine .ite (.call trivial fun sent : Except Thrown Bool => ?_) (last _ _)
  exact .bind (within_awaited sent) fun _ => last _ _

section Table
variable {table : CaseTable} {events : RecordEventInput → Prop}

theorem within_fanOut (eventId : Nat) (input : RecordEventInput) : Within (Asks events) (fanOut table eventId input) :=
  .call trivial fun selected => .bind (within_awaited selected) fun _ =>
    .forM fun _ _ => within_queueDelivery eventId _ _ _

theorem within_recordEvent {input : RecordEventInput} (allowed : events input) :
    Within (Asks events) (recordEvent table input) := by
  refine .call allowed fun returned => .bind (within_awaited returned) fun found => ?_
  cases found with
  | none => exact .done false
  | some eventId => exact .bind (within_fanOut eventId input) fun _ => .done true

theorem within_failureContext (job : JobKey) (sqlInstanceId : Int) :
    Within (Asks events) (failureContext job sqlInstanceId) :=
  .call trivial fun selected => .bind (within_awaited selected) fun _ =>
    .call trivial fun found => .bind (within_awaited found) fun _ => .done _

/-- The event is of this run. -/
def OfRun (instanceId : JsString) (run : IngestedRun) (input : RecordEventInput) : Prop :=
  input.kind ∈ [NotificationEventKind.job_failed, .job_succeeded, .job_recovered] ∧
    input.dedupeKey = occurrence input.kind instanceId run ∧ (input.kind = .job_failed → run.runStatus = 0)

theorem within_recordRun {instanceId : JsString} {run : IngestedRun} (job : JobContext)
    (allowed : ∀ input, OfRun instanceId run input → events input) :
    Within (Asks events) (recordRun table instanceId job run) := by
  refine .bind (within_failureContext _ _) fun history => ?_
  split
  · rename_i failed
    refine .bind (within_recordEvent (allowed _ ⟨?_, rfl, fun _ => failed⟩)) fun _ => .done _
    exact List.mem_cons_self
  · refine .bind (within_recordEvent (allowed _ ⟨?_, rfl, nofun⟩)) fun _ => ?_
    · exact List.mem_cons_of_mem _ List.mem_cons_self
    · split
      · refine .bind (within_recordEvent (allowed _ ⟨?_, rfl, nofun⟩)) fun _ => .done _
        exact List.mem_cons_of_mem _ (List.mem_cons_of_mem _ List.mem_cons_self)
      · exact .done _

theorem within_onRunsIngested {instanceId : JsString} {runs : List IngestedRun}
    (allowed : ∀ run ∈ runs, ∀ input, OfRun instanceId run input → events input) :
    Within (Asks events) (onRunsIngested table instanceId runs) := by
  refine .ite (.done _) (.call trivial fun selected => .bind (within_awaited selected) fun _ => .forM ?_)
  intro run member
  split
  · exact .done _
  · exact within_recordRun _ (allowed run (List.mem_of_mem_filter member))

end Table

/-! ## Deliveries -/

theorem holds_insertDelivery (store : AlertStore) (delivery : NotificationDelivery) (key : Nat × JsString) :
    (store.insertDelivery delivery).2.deliveries.Holds key ↔
      store.deliveries.Holds key ∨ (key = delivery.key ∧ store.HasChannel delivery.channelId) := by
  unfold AlertStore.insertDelivery
  split
  · rename_i taken
    refine (or_iff_left_of_imp ?_).symm
    rintro ⟨rfl, -⟩
    exact taken
  · rename_i free
    split
    · rename_i there
      rw [KeyedTable.holds_add]
      simp [there]
    · rename_i missing
      simp [missing]

theorem insertDelivery_ok (store : AlertStore) (delivery : NotificationDelivery) :
    (store.insertDelivery delivery).1 = .ok () ↔
      store.deliveries.Holds delivery.key ∨ store.HasChannel delivery.channelId := by
  unfold AlertStore.insertDelivery
  split
  · rename_i taken
    simp [taken]
  · rename_i free
    split
    · rename_i there
      simp [there]
    · rename_i missing
      simp [free, missing]

/-- The delivery that is queued for an event on a channel. -/
def AlertStore.queued (store : AlertStore) (eventId : Nat) (throttleKey channelId : JsString) (target : Target) :
    NotificationDelivery :=
  let suppressed := target.throttleMinutes > 0 ∧ store.RecentlySent channelId throttleKey target.throttleMinutes
  { eventId
    ruleId := target.ruleId
    channelId
    throttleKey
    state := if suppressed then .suppressed else .pending
    attempts := 0
    lastError := if suppressed then some (throttled target.throttleMinutes) else none
    nextAttemptAt := store.clock
    sentAt := none }

theorem perform_queueDelivery (sends : NotificationChannel → RecordEventInput → Except Thrown Unit) (store : AlertStore)
    (eventId : Nat) (throttleKey channelId : JsString) (target : Target) :
    perform (AlertStore.respond sends) store (queueDelivery eventId throttleKey channelId target) =
      store.insertDelivery (store.queued eventId throttleKey channelId target) := by
  have last : ∀ suppressed : Bool, perform (AlertStore.respond sends) store
      (.call (.insertDelivery eventId target.ruleId channelId throttleKey (if suppressed then .suppressed else .pending)
        (if suppressed then some (throttled target.throttleMinutes) else none))
        fun inserted : Except Thrown Unit => awaited inserted) = store.insertDelivery
          ⟨eventId, target.ruleId, channelId, throttleKey, if suppressed then .suppressed else .pending, 0,
            if suppressed then some (throttled target.throttleMinutes) else none, store.clock, none⟩ :=
    fun suppressed => perform_awaited _ _
  unfold queueDelivery AlertStore.queued
  by_cases windowed : target.throttleMinutes > 0
  · rw [if_pos windowed]
    refine (last (store.RecentlySent channelId throttleKey target.throttleMinutes)).trans ?_
    simp only [windowed, decide_eq_true_eq, true_and]
  · rw [if_neg windowed]
    refine (last false).trans ?_
    simp only [windowed, false_and, Bool.false_eq_true, ↓reduceIte]

/-- Queue the deliveries of an event, one target after the other. -/
abbrev AlertStore.queueAll (sends : NotificationChannel → RecordEventInput → Except Thrown Unit) (store : AlertStore)
    (eventId : Nat) (throttleKey : JsString) (targets : JsMap Target) : Except Thrown Unit × AlertStore :=
  perform (AlertStore.respond sends) store
    (targets.forM fun target => queueDelivery eventId throttleKey target.1 target.2)

section QueueAll
variable {eventId : Nat} {throttleKey : JsString} {targets : JsMap Target}

theorem queueAll_cons {target : JsString × Target}
    (inserted : store.insertDelivery (store.queued eventId throttleKey target.1 target.2) = (.ok (), after)) :
    store.queueAll sends eventId throttleKey (target :: targets) =
      after.queueAll sends eventId throttleKey targets := by
  rw [← perform_queueDelivery sends] at inserted
  rw [AlertStore.queueAll, List.forM_eq_forM, List.forM_cons, perform_bind inserted]
  rfl

theorem queueAll_cons_error {target : JsString × Target} {thrown : Thrown}
    (refused : store.insertDelivery (store.queued eventId throttleKey target.1 target.2) = (.error thrown, after)) :
    store.queueAll sends eventId throttleKey (target :: targets) = (.error thrown, after) := by
  rw [← perform_queueDelivery sends] at refused
  rw [AlertStore.queueAll, List.forM_eq_forM, List.forM_cons, perform_bind_error refused]

theorem insertDelivery_events (store : AlertStore) (delivery : NotificationDelivery) :
    (store.insertDelivery delivery).2.events = store.events := by
  unfold AlertStore.insertDelivery
  split
  · rfl
  · split <;> rfl

theorem queueAll_events : (store.queueAll sends eventId throttleKey targets).2.events = store.events := by
  induction targets generalizing store with
  | nil => rfl
  | cons target rest ih =>
    have kept := insertDelivery_events store (store.queued eventId throttleKey target.1 target.2)
    cases inserted : store.insertDelivery (store.queued eventId throttleKey target.1 target.2) with
    | mk ended after =>
      rw [inserted] at kept
      cases ended with
      | ok => rw [queueAll_cons inserted, ih, kept]
      | error thrown => rw [queueAll_cons_error inserted, kept]

/-- Every channel that is there gets its delivery. -/
theorem queueAll_wired (sends : NotificationChannel → RecordEventInput → Except Thrown Unit) (eventId : Nat)
    (throttleKey : JsString) (wired : ∀ channelId ∈ targets.keys, store.HasChannel channelId) :
    (store.queueAll sends eventId throttleKey targets).1 = .ok ⟨⟩ ∧
      ∀ key, (store.queueAll sends eventId throttleKey targets).2.deliveries.Holds key ↔
        store.deliveries.Holds key ∨ ∃ channelId ∈ targets.keys, key = (eventId, channelId) := by
  induction targets generalizing store with
  | nil => exact ⟨rfl, fun key => (or_iff_left (by simp [JsMap.keys])).symm⟩
  | cons target rest ih =>
    have here : store.HasChannel target.1 := wired _ List.mem_cons_self
    have holds := holds_insertDelivery store (store.queued eventId throttleKey target.1 target.2)
    have records := records_insertDelivery store (store.queued eventId throttleKey target.1 target.2)
    have ok := (insertDelivery_ok store (store.queued eventId throttleKey target.1 target.2)).mpr (.inr here)
    cases inserted : store.insertDelivery (store.queued eventId throttleKey target.1 target.2) with
    | mk ended after =>
      rw [inserted] at holds records ok
      cases ok
      rw [queueAll_cons inserted]
      obtain ⟨done, kept⟩ := ih fun channelId member =>
        records.hasChannel.mpr (wired channelId (List.mem_cons_of_mem _ member))
      refine ⟨done, fun key => ?_⟩
      rw [kept, holds]
      simp only [JsMap.keys, List.map_cons, List.mem_cons, exists_eq_or_imp, or_assoc]
      refine or_congr_right (or_congr_left ?_)
      exact and_iff_left here

/-- A channel that is not there stops the others. -/
theorem queueAll_dead (sends : NotificationChannel → RecordEventInput → Except Thrown Unit) (throttleKey : JsString)
    {channelId : JsString} (target : channelId ∈ targets.keys) (missing : ¬ store.HasChannel channelId)
    (free : ¬ store.deliveries.Holds (eventId, channelId)) :
    ∃ thrown, (store.queueAll sends eventId throttleKey targets).1 = .error thrown := by
  induction targets generalizing store with
  | nil => exact absurd target List.not_mem_nil
  | cons first rest ih =>
    have holds := holds_insertDelivery store (store.queued eventId throttleKey first.1 first.2)
    have records := records_insertDelivery store (store.queued eventId throttleKey first.1 first.2)
    have ok := insertDelivery_ok store (store.queued eventId throttleKey first.1 first.2)
    cases inserted : store.insertDelivery (store.queued eventId throttleKey first.1 first.2) with
    | mk ended after =>
      rw [inserted] at holds records ok
      cases ended with
      | error thrown =>
        rw [queueAll_cons_error inserted]
        exact ⟨thrown, rfl⟩
      | ok =>
        rw [queueAll_cons inserted]
        rcases List.mem_cons.mp target with rfl | later
        · rcases ok.mp rfl with held | there
          · exact absurd held free
          · exact absurd there missing
        · refine ih later (fun there => missing (records.hasChannel.mp there)) fun held => ?_
          rcases (holds _).mp held with before | ⟨same, there⟩
          · exact free before
          · exact missing ((Prod.mk.inj same).2 ▸ there)

end QueueAll

/-! ## Events -/

section Events
variable {table : CaseTable} {input : RecordEventInput}

/-- The channels an event is for, with their windows. -/
def AlertStore.targets (table : CaseTable) (store : AlertStore) (input : RecordEventInput) : JsMap Target :=
  matchRules table (store.rules.filter (·.enabled)) input

/-- Every channel that a matching rule names is there. -/
def AlertStore.Wired (table : CaseTable) (store : AlertStore) (input : RecordEventInput) : Prop :=
  ∀ channelId ∈ (store.targets table input).keys, store.HasChannel channelId

instance (store : AlertStore) : Decidable (store.Wired table input) :=
  inferInstanceAs (Decidable (∀ channelId ∈ (store.targets table input).keys, _))

/-- Deliveries are of events that were recorded. -/
def AlertStore.Referenced (store : AlertStore) : Prop :=
  ∀ delivery ∈ store.deliveries, delivery.eventId < store.events.rows.length

/-- What is known already is not recorded again. -/
theorem perform_recordEvent_known (known : store.events.Holds input.dedupeKey) :
    perform (AlertStore.respond sends) store (recordEvent table input) = (.ok false, store) := by
  have answer : store.insertEvent input = (none, store) := dif_pos known
  rw [recordEvent]
  change perform (AlertStore.respond sends) (store.insertEvent input).2
    (awaited (.ok (store.insertEvent input).1) >>= _) = _
  rw [answer]
  rfl

/-- The store with one more event. -/
def AlertStore.withEvent (store : AlertStore) (input : RecordEventInput)
    (fresh : ¬ store.events.Holds input.dedupeKey) :
    AlertStore :=
  { store with events := store.events.add ⟨store.events.rows.length, input⟩ fresh }

/-- A new event is fanned out. -/
theorem perform_recordEvent_new (fresh : ¬ store.events.Holds input.dedupeKey) :
    perform (AlertStore.respond sends) store (recordEvent table input) =
      (((store.withEvent input fresh).queueAll sends store.events.rows.length input.throttleKey
        (store.targets table input)).1.map fun _ => true,
      ((store.withEvent input fresh).queueAll sends store.events.rows.length input.throttleKey
        (store.targets table input)).2) := by
  have answer : store.insertEvent input = (some store.events.rows.length, store.withEvent input fresh) := dif_neg fresh
  rw [recordEvent]
  change perform (AlertStore.respond sends) (store.insertEvent input).2
    (awaited (.ok (store.insertEvent input).1) >>= _) = _
  rw [answer]
  change perform (AlertStore.respond sends) (store.withEvent input fresh)
    ((store.targets table input).forM (fun target =>
      queueDelivery store.events.rows.length input.throttleKey target.1 target.2) >>= fun _ => .done true) = _
  cases run : (store.withEvent input fresh).queueAll sends store.events.rows.length input.throttleKey
      (store.targets table input) with
  | mk ended after =>
    cases ended with
    | ok => exact perform_bind run
    | error thrown => exact perform_bind_error run

theorem records_recordEvent (table : CaseTable) (sends : NotificationChannel → RecordEventInput → Except Thrown Unit)
    (store : AlertStore) (input : RecordEventInput) :
    Raises store (perform (AlertStore.respond sends) store (recordEvent table input)).2 := by
  have only : Within (Asks fun _ => True) (recordEvent table input) := within_recordEvent trivial
  exact perform_keeps only (fun _ _ asks records => records.trans (records_respond asks)) (.refl store)

/-- An event is there once it was recorded, whether or not its deliveries are. -/
theorem events_recordEvent (table : CaseTable) (sends : NotificationChannel → RecordEventInput → Except Thrown Unit)
    (store : AlertStore) (input : RecordEventInput) :
    (perform (AlertStore.respond sends) store (recordEvent table input)).2.events.rows =
      store.events.rows ++
        if store.events.Holds input.dedupeKey then [] else [⟨store.events.rows.length, input⟩] := by
  by_cases known : store.events.Holds input.dedupeKey
  · rw [perform_recordEvent_known known, if_pos known, List.append_nil]
  · rw [perform_recordEvent_new known, if_neg known, queueAll_events]
    rfl

/-- A new event has its deliveries, if every channel it is for is there. -/
theorem recordEvent_wired (sends : NotificationChannel → RecordEventInput → Except Thrown Unit)
    (fresh : ¬ store.events.Holds input.dedupeKey) (wired : store.Wired table input) :
    (perform (AlertStore.respond sends) store (recordEvent table input)).1 = .ok true ∧
      ∀ key, (perform (AlertStore.respond sends) store (recordEvent table input)).2.deliveries.Holds key ↔
        store.deliveries.Holds key ∨ ∃ channelId ∈ (store.targets table input).keys,
          key = (store.events.rows.length, channelId) := by
  obtain ⟨done, holds⟩ := queueAll_wired sends store.events.rows.length input.throttleKey
    (show ∀ channelId ∈ (store.targets table input).keys, (store.withEvent input fresh).HasChannel channelId from wired)
  rw [perform_recordEvent_new fresh]
  exact ⟨congrArg (Except.map fun _ => true) done, holds⟩

/-- Recording a new event throws if a channel it is for is not there. -/
theorem recordEvent_dead (sends : NotificationChannel → RecordEventInput → Except Thrown Unit)
    (fresh : ¬ store.events.Holds input.dedupeKey) (referenced : store.Referenced)
    (dead : ¬ store.Wired table input) :
    ∃ thrown, (perform (AlertStore.respond sends) store (recordEvent table input)).1 = .error thrown := by
  obtain ⟨channelId, dead⟩ := not_forall.mp dead
  obtain ⟨target, missing⟩ := Classical.not_imp.mp dead
  have free : ¬ (store.withEvent input fresh).deliveries.Holds (store.events.rows.length, channelId) := by
    intro held
    obtain ⟨delivery, member, same⟩ := KeyedTable.holds_iff.mp held
    have below := referenced delivery member
    have own : delivery.eventId = store.events.rows.length := congrArg Prod.fst same
    omega
  have missing : ¬ (store.withEvent input fresh).HasChannel channelId := missing
  obtain ⟨thrown, result⟩ := queueAll_dead sends input.throttleKey target missing free
  rw [perform_recordEvent_new fresh]
  exact ⟨thrown, congrArg (Except.map fun _ => true) result⟩

theorem mem_addTarget (rule : NotificationRule) (targets : JsMap Target) (channelId other : JsString) :
    other ∈ (addTarget rule targets channelId).keys ↔ other ∈ targets.keys ∨ other = channelId := by
  have added : other ∈ (targets.set channelId ⟨rule.id, rule.throttleMinutes⟩).keys ↔
      other ∈ targets.keys ∨ other = channelId := by
    rw [JsMap.mem_keys, JsMap.get_set, JsMap.mem_keys]
    by_cases same : channelId = other
    · simp [same]
    · simp [same, Ne.symm same]
  unfold addTarget
  split
  · exact added
  · rename_i existing found
    split
    · exact added
    · refine (or_iff_left_of_imp ?_).symm
      rintro rfl
      rw [JsMap.mem_keys, found]
      rfl

theorem mem_addTargets (rule : NotificationRule) (channelIds : List JsString) (targets : JsMap Target)
    (channelId : JsString) :
    channelId ∈ (channelIds.foldl (addTarget rule) targets).keys ↔
      channelId ∈ targets.keys ∨ channelId ∈ channelIds := by
  induction channelIds generalizing targets with
  | nil => simp
  | cons first rest ih => rw [List.foldl_cons, ih, mem_addTarget, List.mem_cons, or_assoc]

theorem mem_matchRules {rules : List NotificationRule} {channelId : JsString} :
    channelId ∈ (matchRules table rules input).keys ↔
      ∃ rule ∈ rules, rule.Matches table input ∧ channelId ∈ rule.channelIds := by
  have run : ∀ targets : JsMap Target,
      channelId ∈ (rules.foldl (fun targets rule =>
        if rule.Matches table input then rule.channelIds.foldl (addTarget rule) targets else targets) targets).keys ↔
        channelId ∈ targets.keys ∨ ∃ rule ∈ rules, rule.Matches table input ∧ channelId ∈ rule.channelIds := by
    induction rules with
    | nil => simp
    | cons rule rest ih =>
      intro targets
      rw [List.foldl_cons, ih]
      by_cases matching : rule.Matches table input
      · rw [if_pos matching, mem_addTargets]
        simp only [List.mem_cons, exists_eq_or_imp, matching, true_and, or_assoc]
      · rw [if_neg matching]
        simp only [List.mem_cons, exists_eq_or_imp, matching, false_and, false_or]
  refine (run []).trans (or_iff_right ?_)
  simp [JsMap.keys]

/-- A channel is for an event if an enabled rule that matches names it. -/
theorem mem_targets {channelId : JsString} : channelId ∈ (store.targets table input).keys ↔
    ∃ rule ∈ store.rules, rule.enabled = true ∧ rule.Matches table input ∧ channelId ∈ rule.channelIds := by
  rw [AlertStore.targets, mem_matchRules]
  simp only [List.mem_filter, and_assoc]

end Events

end Recording

end RemoteSqlAgent
