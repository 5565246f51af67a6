import RemoteSqlAgent.FailureAlerts

/-! The throttle over whole runs. Whether an event is held back is decided when it is
recorded, from what was sent by then; what is pending then does not count, and is
sent later. So the throttle holds as long as nothing is queued beside something that
is pending. -/
namespace RemoteSqlAgent
open Js CallProgram

/-! ## What recording queues -/

section Recording
variable {table : CaseTable} {before now : AlertStore} {input : RecordEventInput}

/-- A delivery that recording an event queues. It is held back if one like it was
sent, within the minutes of its target. -/
structure QueuedFor (table : CaseTable) (before : AlertStore) (input : RecordEventInput)
    (delivery : NotificationDelivery) : Prop where
  fresh : ¬ before.events.Holds input.dedupeKey
  eventId : delivery.eventId = before.events.rows.length
  throttleKey : delivery.throttleKey = input.throttleKey
  unsent : delivery.state ≠ .sent
  target : ∃ target, (delivery.channelId, target) ∈ before.targets table input ∧
    (delivery.state = .pending → target.throttleMinutes > 0 →
      ¬ before.RecentlySent delivery.channelId input.throttleKey target.throttleMinutes)

/-- What recording an event leaves, however far it came. -/
structure Recorded (table : CaseTable) (before : AlertStore) (input : RecordEventInput) (after : AlertStore) : Prop
    extends Raises before after where
  queued : ∀ delivery ∈ after.deliveries, delivery ∈ before.deliveries ∨ QueuedFor table before input delivery
  noted : after.events.rows = before.events.rows ∨
    after.events.rows = before.events.rows ++ [⟨before.events.rows.length, input⟩]

theorem Recorded.recentlySent (recorded : Recorded table before input now) {channelId throttleKey : JsString}
    {minutes : Nat}
    (sent : before.RecentlySent channelId throttleKey minutes) : now.RecentlySent channelId throttleKey minutes := by
  obtain ⟨delivery, member, rest⟩ := sent
  refine ⟨delivery, recorded.deliveries.subset member, ?_⟩
  rw [recorded.settled]
  exact rest

theorem recorded_insertDelivery (recorded : Recorded table before input now) {delivery : NotificationDelivery}
    (queued : QueuedFor table before input delivery) : Recorded table before input (now.insertDelivery delivery).2 := by
  refine ⟨recorded.toRaises.trans (records_insertDelivery now delivery), fun other member => ?_, ?_⟩
  · unfold AlertStore.insertDelivery at member
    split at member
    · exact recorded.queued other member
    · split at member
      · rcases List.mem_append.mp member with held | new
        · exact recorded.queued other held
        · exact .inr (List.mem_singleton.mp new ▸ queued)
      · exact recorded.queued other member
  · rw [insertDelivery_events]
    exact recorded.noted

variable {sends : NotificationChannel → RecordEventInput → Except Thrown Unit}

/-- A program that ends or throws at an answer, without another call. -/
theorem ensures_awaited {α : Type} {answer : Except Thrown α} (recorded : Recorded table before input now) :
    Ensures (AlertStore.respond sends) NotificationCall.failed (Recorded table before input)
      (fun _ => Recorded table before input) now (awaited answer) := by
  cases answer with
  | ok value => exact .done value recorded recorded
  | error thrown => exact .throw thrown recorded

theorem ensures_queueDelivery (fresh : ¬ before.events.Holds input.dedupeKey) {target : JsString × Target}
    (isTarget : target ∈ before.targets table input) (recorded : Recorded table before input now) :
    Ensures (AlertStore.respond sends) NotificationCall.failed (Recorded table before input)
      (fun _ => Recorded table before input) now
      (queueDelivery before.events.rows.length input.throttleKey target.1 target.2) := by
  have last : ∀ suppressed : Bool,
      (suppressed = false → target.2.throttleMinutes > 0 →
        ¬ before.RecentlySent target.1 input.throttleKey target.2.throttleMinutes) →
      Ensures (AlertStore.respond sends) NotificationCall.failed (Recorded table before input)
        (fun _ => Recorded table before input) now
        (.call (.insertDelivery before.events.rows.length target.2.ruleId target.1 input.throttleKey
          (if suppressed then .suppressed else .pending)
          (if suppressed then some (throttled target.2.throttleMinutes) else none))
          fun inserted : Except Thrown Unit => awaited inserted : NotificationProgram Unit) := by
    intro suppressed unsuppressed
    have queued : QueuedFor table before input
        ⟨before.events.rows.length, target.2.ruleId, target.1, input.throttleKey,
          if suppressed then .suppressed else .pending, 0,
          if suppressed then some (throttled target.2.throttleMinutes) else none, now.clock, none⟩ := by
      refine ⟨fresh, rfl, rfl, ?_, target.2, isTarget, fun isPending => unsuppressed ?_⟩
      · cases suppressed <;> intro same <;> cases same
      · cases suppressed
        · rfl
        · cases isPending
    have inserted := recorded_insertDelivery recorded queued
    exact .call recorded (ensures_awaited inserted) (.throw _ inserted) (.throw _ recorded)
  unfold queueDelivery
  by_cases windowed : target.2.throttleMinutes > 0
  · rw [if_pos windowed]
    refine .call recorded ?_ (.throw _ recorded) (.throw _ recorded)
    refine last (now.RecentlySent target.1 input.throttleKey target.2.throttleMinutes) fun isFalse _ sent => ?_
    exact of_decide_eq_false isFalse (recorded.recentlySent sent)
  · rw [if_neg windowed]
    exact last false fun _ positive => absurd positive windowed

/-- Whatever goes wrong, recording an event queues for its targets only, and only
what nothing sent holds back. -/
theorem ensures_recordEvent (before : AlertStore) (input : RecordEventInput) :
    Ensures (AlertStore.respond sends) NotificationCall.failed (Recorded table before input)
      (fun _ => Recorded table before input) before (recordEvent table input) := by
  have first : Recorded table before input before := ⟨.refl before, fun _ member => .inl member, .inl rfl⟩
  by_cases known : before.events.Holds input.dedupeKey
  · have answer : before.insertEvent input = (none, before) := dif_pos known
    refine .call first ?_ (.throw _ ?_) (.throw _ first)
    · change Ensures _ _ _ _ (before.insertEvent input).2 (awaited (.ok (before.insertEvent input).1) >>= _)
      rw [answer]
      exact .done _ first first
    · change Recorded table before input (before.insertEvent input).2
      rw [answer]
      exact first
  · have answer : before.insertEvent input = (some before.events.rows.length, before.withEvent input known) :=
      dif_neg known
    have noted : Recorded table before input (before.withEvent input known) :=
      ⟨⟨rfl, List.prefix_append _ _, List.prefix_rfl⟩, fun _ member => .inl member, .inr rfl⟩
    have fanned : Ensures (AlertStore.respond sends) NotificationCall.failed (Recorded table before input)
        (fun _ => Recorded table before input) (before.withEvent input known)
        (fanOut table before.events.rows.length input) := by
      refine .call noted ?_ (.throw _ noted) (.throw _ noted)
      change Ensures _ _ _ _ (before.withEvent input known) ((before.targets table input).forM fun target =>
        queueDelivery before.events.rows.length input.throttleKey target.1 target.2)
      exact .forM (fun _ recorded => recorded) (fun state recorded target isTarget =>
        ensures_queueDelivery known isTarget recorded) noted
    refine .call first ?_ (.throw _ ?_) (.throw _ first)
    · change Ensures _ _ _ _ (before.insertEvent input).2 (awaited (.ok (before.insertEvent input).1) >>= _)
      rw [answer]
      change Ensures _ _ _ _ (before.withEvent input known)
        (fanOut table before.events.rows.length input >>= fun _ => .done true)
      exact .bind fanned fun _ after recorded => .done true recorded recorded
    · change Recorded table before input (before.insertEvent input).2
      rw [answer]
      exact noted

end Recording

/-! ## What sending leaves -/

section Sending
variable {before now : AlertStore} {key : Nat × JsString}

/-- What sending one delivery asks of the database. -/
def DeliversTo (key : Nat × JsString) : NotificationCall → Prop
  | .send .. | .channelDelivered _ | .channelFailed .. => True
  | .markSent delivery _ => delivery = key
  | .markFailed delivery state .. => delivery = key ∧ state ≠ .sent
  | _ => False

/-- A change of one delivery. It is marked as sent at this time, if it is. -/
structure Attempt (clock : Int) (change : NotificationDelivery → NotificationDelivery) : Prop where
  key : ∀ delivery, (change delivery).key = delivery.key
  throttleKey : ∀ delivery, (change delivery).throttleKey = delivery.throttleKey
  sentAt : ∀ delivery, (change delivery).state = .sent → (change delivery).sentAt = some clock ∨
    change delivery = delivery

/-- What an attempt to send one delivery leaves, however far it came. -/
structure Attempted (before : AlertStore) (key : Nat × JsString) (after : AlertStore) : Prop where
  settled : after = { before with channels := after.channels, deliveries := after.deliveries }
  channels : after.channels.map (·.id) = before.channels.map (·.id)
  changed : ∃ change, Attempt before.clock change ∧
    after.deliveries.rows = before.deliveries.rows.map fun delivery =>
      if delivery.key = key then change delivery else delivery

theorem attempted_updateDelivery (attempted : Attempted before key now)
    {change : NotificationDelivery → NotificationDelivery} (attempt : Attempt before.clock change) :
    Attempted before key (now.updateDelivery key change attempt.key) := by
  obtain ⟨first, isAttempt, rows⟩ := attempted.changed
  refine ⟨?_, attempted.channels, change ∘ first,
    ⟨fun delivery => ?_, fun delivery => ?_, fun delivery isSent => ?_⟩, ?_⟩
  · rw [AlertStore.updateDelivery, attempted.settled]
  · exact (attempt.key _).trans (isAttempt.key delivery)
  · exact (attempt.throttleKey _).trans (isAttempt.throttleKey delivery)
  · rcases attempt.sentAt (first delivery) isSent with at_ | same
    · exact .inl at_
    · rw [Function.comp_apply, same] at isSent ⊢
      exact isAttempt.sentAt delivery isSent
  · change now.deliveries.rows.map _ = _
    rw [rows, List.map_map]
    refine List.map_congr_left fun delivery _ => ?_
    by_cases isKey : delivery.key = key
    · simp only [Function.comp_apply, isKey, ↓reduceIte, isAttempt.key]
    · simp only [Function.comp_apply, isKey, ↓reduceIte]

theorem attempted_updateChannel (attempted : Attempted before key now) (id : JsString)
    {change : NotificationChannel → NotificationChannel} (keeps : ∀ channel, (change channel).id = channel.id) :
    Attempted before key (now.updateChannel id change) := by
  refine ⟨?_, ?_, attempted.changed⟩
  · rw [AlertStore.updateChannel, attempted.settled]
  · rw [← attempted.channels, AlertStore.updateChannel, List.map_map]
    refine List.map_congr_left fun channel _ => ?_
    by_cases isChannel : channel.id = id
    · simp only [Function.comp_apply, isChannel, ↓reduceIte, keeps]
    · simp only [Function.comp_apply, isChannel, ↓reduceIte]

theorem within_awaited_of {α : Type} {allowed : NotificationCall → Prop} (answer : Except Thrown α) :
    Within allowed (awaited answer) := by
  cases answer with
  | ok value => exact .done value
  | error thrown => exact .throw thrown

theorem delivers_deliverDue (due : Due) : Within (DeliversTo due.delivery.key) (deliverDue due) := by
  refine .tryCatch ?_ fun thrown => ?_
  · refine .call trivial fun sent : Except Thrown Unit => .bind (within_awaited_of sent) fun _ => ?_
    refine .call rfl fun marked : Except Thrown Unit => .bind (within_awaited_of marked) fun _ => ?_
    exact .call trivial fun updated : Except Thrown Unit => .bind (within_awaited_of updated) fun _ => .done _
  · refine .call ⟨rfl, ?_⟩ fun marked : Except Thrown Unit => .bind (within_awaited_of marked) fun _ => ?_
    · split <;> intro same <;> cases same
    · exact .call trivial fun updated : Except Thrown Unit => .bind (within_awaited_of updated) fun _ => .done _

theorem attempted_deliverDue (sends : NotificationChannel → RecordEventInput → Except Thrown Unit)
    (faults : List (Option Fault)) (before : AlertStore) (due : Due) : Attempted before due.delivery.key
      (performUnder (AlertStore.respond sends) NotificationCall.failed faults before (deliverDue due)).2.2 := by
  refine performUnder_keeps (delivers_deliverDue due) (fun now call allowed attempted => ?_)
    ⟨rfl, rfl, id, ⟨fun _ => rfl,
    fun _ => rfl, fun _ _ => .inr rfl⟩, by simp⟩
  have clock : now.clock = before.clock := by rw [attempted.settled]
  cases call with
  | send => exact attempted
  | channelDelivered id => exact attempted_updateChannel attempted id fun _ => rfl
  | channelFailed id lastError => exact attempted_updateChannel attempted id fun _ => rfl
  | markSent delivery attempts =>
    cases (allowed : delivery = due.delivery.key)
    have attempt : Attempt before.clock fun delivery : NotificationDelivery => { delivery with
        state := .sent, sentAt := some now.clock, attempts := attempts, lastError := none } :=
      ⟨fun _ => rfl, fun _ => rfl, fun _ _ => .inl (congrArg some clock)⟩
    exact attempted_updateDelivery attempted attempt
  | markFailed delivery state attempts lastError delay =>
    obtain ⟨isKey, unsent⟩ := (allowed : delivery = due.delivery.key ∧ state ≠ .sent)
    cases isKey
    have attempt : Attempt before.clock fun delivery : NotificationDelivery => { delivery with
        state := state, attempts := attempts, lastError := some lastError, nextAttemptAt := now.clock + delay } :=
      ⟨fun _ => rfl, fun _ => rfl, fun _ isSent => absurd isSent unsent⟩
    exact attempted_updateDelivery attempted attempt
  | insertEvent | selectRules | selectSent | insertDelivery | selectJobs | selectOutcomes | selectFailedStep
  | selectDue =>
    exact allowed.elim

end Sending

/-! ## Recording and draining over time -/

/-- The database, and what the drain in progress has still to send. -/
structure Dispatcher where
  store : AlertStore
  remaining : List Due

/-- Events are recorded between the deliveries of a drain, and time passes. -/
inductive DispatchStep where
  | record (input : RecordEventInput) (faults : List (Option Fault))
  /-- A drain selects what is due, unless one is in progress. -/
  | drain (limit : Nat)
  /-- The drain in progress sends its next delivery. -/
  | deliver (sends : NotificationChannel → RecordEventInput → Except Thrown Unit) (faults : List (Option Fault))
  | restart
  | wait (milliseconds : Nat)

namespace Dispatcher

def next (table : CaseTable) (dispatcher : Dispatcher) : DispatchStep → Dispatcher
  | .record input faults =>
    { dispatcher with
      store := (performUnder (AlertStore.respond fun _ _ => .ok ()) NotificationCall.failed faults dispatcher.store
        (recordEvent table input)).2.2 }
  | .drain limit =>
    if dispatcher.remaining.isEmpty then { dispatcher with remaining := dispatcher.store.due limit } else dispatcher
  | .deliver sends faults =>
    match dispatcher.remaining with
    | [] => dispatcher
    | due :: rest =>
      let outcome :=
        performUnder (AlertStore.respond sends) NotificationCall.failed faults dispatcher.store (deliverDue due)
      -- What it throws ends the drain.
      match outcome.1 with
      | some (.ok _) => ⟨outcome.2.2, rest⟩
      | _ => ⟨outcome.2.2, []⟩
  | .restart => { dispatcher with remaining := [] }
  | .wait milliseconds =>
    { dispatcher with store := { dispatcher.store with clock := dispatcher.store.clock + milliseconds } }

def run (table : CaseTable) (dispatcher : Dispatcher) (steps : List DispatchStep) : Dispatcher :=
  steps.foldl (next table) dispatcher

theorem run_concat (table : CaseTable) (dispatcher : Dispatcher) (steps : List DispatchStep) (step : DispatchStep) :
    dispatcher.run table (steps ++ [step]) = (dispatcher.run table steps).next table step := by
  rw [run, List.foldl_append]
  rfl

end Dispatcher

/-- What the throttle counts together. -/
def Concerns (channelId throttleKey : JsString) (delivery : NotificationDelivery) : Prop :=
  delivery.channelId = channelId ∧ delivery.throttleKey = throttleKey

instance (channelId throttleKey : JsString) (delivery : NotificationDelivery) :
    Decidable (Concerns channelId throttleKey delivery) := inferInstanceAs (Decidable (_ ∧ _))

/-- Nothing is queued beside something that is pending. -/
def Spaced (table : CaseTable) (channelId throttleKey : JsString) (dispatcher : Dispatcher) : DispatchStep → Prop
  | .record input _ =>
    input.throttleKey = throttleKey → channelId ∈ (dispatcher.store.targets table input).keys →
      ¬ dispatcher.store.events.Holds input.dedupeKey →
        ¬ ∃ delivery ∈ dispatcher.store.deliveries, Concerns channelId throttleKey delivery ∧ delivery.state = .pending
  | _ => True

instance (table : CaseTable) (channelId throttleKey : JsString) (dispatcher : Dispatcher) (step : DispatchStep) :
    Decidable (Spaced table channelId throttleKey dispatcher step) :=
  match step with
  | .record input _ => inferInstanceAs (Decidable (input.throttleKey = throttleKey →
      channelId ∈ (dispatcher.store.targets table input).keys → ¬ dispatcher.store.events.Holds input.dedupeKey →
        ¬ ∃ delivery ∈ dispatcher.store.deliveries.rows, _))
  | .drain _ | .deliver .. | .restart | .wait _ => isTrue trivial

/-- The throttle that rules give a channel for what is recorded under a key. -/
def Effective (table : CaseTable) (store : AlertStore) (channelId throttleKey : JsString) (minutes : Nat) :
    DispatchStep → Prop
  | .record input _ =>
    input.throttleKey = throttleKey → ∀ target, (channelId, target) ∈ store.targets table input →
      target.throttleMinutes = minutes
  | _ => True

/-! ## What every step keeps -/

/-- What was sent is apart, and a pending delivery is alone and far from it. -/
structure Throttling (channelId throttleKey : JsString) (minutes : Nat) (store : AlertStore) : Prop where
  past : ∀ delivery ∈ store.deliveries, delivery.state = .sent →
    ∃ sentAt, delivery.sentAt = some sentAt ∧ sentAt ≤ store.clock
  apart : ∀ a ∈ store.deliveries, ∀ b ∈ store.deliveries, a ≠ b → Concerns channelId throttleKey a →
    Concerns channelId throttleKey b → a.state = .sent → b.state = .sent →
      ∀ first ∈ a.sentAt, ∀ second ∈ b.sentAt, AlertStore.window minutes < |first - second|
  alone : ∀ a ∈ store.deliveries, ∀ b ∈ store.deliveries, Concerns channelId throttleKey a →
    Concerns channelId throttleKey b → a.state = .pending → b.state = .pending → a = b
  far : ∀ a ∈ store.deliveries, ∀ b ∈ store.deliveries, Concerns channelId throttleKey a →
    Concerns channelId throttleKey b → a.state = .pending → b.state = .sent →
      ∀ sentAt ∈ b.sentAt, sentAt < store.clock - AlertStore.window minutes

/-- Events and channels have ids of their own, and what a drain has still to send is
pending, each once. -/
structure Consonant (dispatcher : Dispatcher) : Prop where
  ids : dispatcher.store.events.rows.map (·.id) = List.range dispatcher.store.events.rows.length
  channels : (dispatcher.store.channels.map (·.id)).Nodup
  pending : ∀ due ∈ dispatcher.remaining, ∃ delivery ∈ dispatcher.store.deliveries,
    delivery.key = due.delivery.key ∧ delivery.state = .pending
  once : (dispatcher.remaining.map fun due => due.delivery.key).Nodup

section Steps
variable {table : CaseTable} {store before after : AlertStore} {channelId throttleKey : JsString} {minutes : Nat}
variable {input : RecordEventInput} {key : Nat × JsString}

/-- Recording keeps the throttle, if nothing is pending that it queues beside. -/
theorem throttling_recorded (throttling : Throttling channelId throttleKey minutes before) (positive : minutes > 0)
    (recorded : Recorded table before input after)
    (effective : input.throttleKey = throttleKey → ∀ target, (channelId, target) ∈ before.targets table input →
      target.throttleMinutes = minutes)
    (spaced : input.throttleKey = throttleKey → channelId ∈ (before.targets table input).keys →
      ¬ before.events.Holds input.dedupeKey →
        ¬ ∃ delivery ∈ before.deliveries, Concerns channelId throttleKey delivery ∧ delivery.state = .pending) :
    Throttling channelId throttleKey minutes after := by
  have clock : after.clock = before.clock := by rw [recorded.settled]
  have old : ∀ delivery ∈ after.deliveries, delivery.state = .sent → delivery ∈ before.deliveries :=
    fun delivery member isSent => (recorded.queued delivery member).resolve_right fun queued => queued.unsent isSent
  -- What is pending is as it was, or it is the delivery of this event.
  have waits : ∀ delivery ∈ after.deliveries, Concerns channelId throttleKey delivery → delivery.state = .pending →
      delivery ∈ before.deliveries ∨ (QueuedFor table before input delivery ∧
        (¬ ∃ delivery ∈ before.deliveries, Concerns channelId throttleKey delivery ∧ delivery.state = .pending) ∧
        ¬ before.RecentlySent channelId throttleKey minutes) := by
    rintro delivery member ⟨rfl, rfl⟩ isPending
    rcases recorded.queued delivery member with held | queued
    · exact .inl held
    · obtain ⟨target, isTarget, unsent⟩ := queued.target
      have same := effective queued.throttleKey.symm target isTarget
      refine .inr ⟨queued, spaced queued.throttleKey.symm (List.mem_map.mpr ⟨_, isTarget, rfl⟩) queued.fresh, ?_⟩
      rw [queued.throttleKey, ← same]
      exact unsent isPending (same ▸ positive)
  refine ⟨fun delivery member isSent => ?_, fun a member b there apart first second isSent also => ?_,
    fun a member b there first second isPending also => ?_,
      fun a member b there first second isPending isSent sentAt at_ => ?_⟩
  · rw [clock]
    exact throttling.past delivery (old delivery member isSent) isSent
  · exact throttling.apart a (old a member isSent) b (old b there also) apart first second isSent also
  · rcases waits a member first isPending with held | ⟨queued, free, -⟩ <;>
      rcases waits b there second also with alsoHeld | ⟨alsoQueued, alsoFree, -⟩
    · exact throttling.alone a held b alsoHeld first second isPending also
    · exact absurd ⟨a, held, first, isPending⟩ alsoFree
    · exact absurd ⟨b, alsoHeld, second, also⟩ free
    · refine after.deliveries.eq_of_key member there (Prod.ext ?_ ?_)
      · exact queued.eventId.trans alsoQueued.eventId.symm
      · exact first.1.trans second.1.symm
  · rw [clock]
    have held := old b there isSent
    rcases waits a member first isPending with before_ | ⟨-, -, unsent⟩
    · exact throttling.far a before_ b held first second isPending isSent sentAt at_
    · by_contra near
      exact unsent ⟨b, held, second.1, second.2, isSent, sentAt, at_, by omega⟩

/-- An attempt at a delivery that is pending keeps the throttle. -/
theorem throttling_attempted (throttling : Throttling channelId throttleKey minutes before)
    (attempted : Attempted before key after)
    (pending : ∃ delivery ∈ before.deliveries, delivery.key = key ∧ delivery.state = .pending) :
    Throttling channelId throttleKey minutes after := by
  obtain ⟨waiting, isWaiting, rfl, isPending⟩ := pending
  obtain ⟨change, attempt, rows⟩ := attempted.changed
  have clock : after.clock = before.clock := by rw [attempted.settled]
  -- Every delivery is as it was, or it is the one that was attempted.
  have sources : ∀ delivery ∈ after.deliveries, delivery ∈ before.deliveries ∧ delivery.key ≠ waiting.key ∨
      delivery = change waiting := fun delivery member => (KeyedTable.mem_rewritten isWaiting rows).mp member
  have concerns : Concerns channelId throttleKey (change waiting) → Concerns channelId throttleKey waiting :=
    fun ⟨channel, throttle⟩ => ⟨(congrArg Prod.snd (attempt.key waiting)).symm.trans channel,
      (attempt.throttleKey waiting).symm.trans throttle⟩
  have sentNow : (change waiting).state = .sent → (change waiting).sentAt = some before.clock := by
    intro isSent
    rcases attempt.sentAt waiting isSent with at_ | same
    · exact at_
    · rw [same, isPending] at isSent
      cases isSent
  refine ⟨fun delivery member isSent => ?_, fun a member b there apart first second isSent also s at_ t also_ => ?_,
    fun a member b there first second waits also => ?_, fun a member b there first second waits isSent sentAt at_ => ?_⟩
  · rw [clock]
    rcases sources delivery member with ⟨held, -⟩ | rfl
    · exact throttling.past delivery held isSent
    · exact ⟨before.clock, sentNow isSent, le_refl _⟩
  · rcases sources a member with ⟨held, -⟩ | rfl <;> rcases sources b there with ⟨alsoHeld, -⟩ | rfl
    · exact throttling.apart a held b alsoHeld apart first second isSent also s at_ t also_
    · rw [sentNow also] at also_
      cases also_
      have far := throttling.far waiting isWaiting a held (concerns second) first isPending isSent s at_
      exact lt_abs.mpr (.inr (by omega))
    · rw [sentNow isSent] at at_
      cases at_
      have far := throttling.far waiting isWaiting b alsoHeld (concerns first) second isPending also t also_
      exact lt_abs.mpr (.inl (by omega))
    · exact absurd rfl apart
  · rcases sources a member with ⟨held, other⟩ | rfl <;> rcases sources b there with ⟨alsoHeld, alsoOther⟩ | rfl
    · exact throttling.alone a held b alsoHeld first second waits also
    · exact absurd
        (congrArg _ (throttling.alone a held waiting isWaiting first (concerns second) waits isPending)) other
    · exact absurd
        (congrArg _ (throttling.alone b alsoHeld waiting isWaiting second (concerns first) also isPending)) alsoOther
    · rfl
  · rw [clock]
    rcases sources a member with ⟨held, other⟩ | rfl <;> rcases sources b there with ⟨alsoHeld, -⟩ | rfl
    · exact throttling.far a held b alsoHeld first second waits isSent sentAt at_
    · exact absurd
        (congrArg _ (throttling.alone a held waiting isWaiting first (concerns second) waits isPending)) other
    · exact throttling.far waiting isWaiting b alsoHeld (concerns first) second isPending isSent sentAt at_
    · rw [waits] at isSent
      cases isSent

theorem throttling_wait (throttling : Throttling channelId throttleKey minutes store) (milliseconds : Nat) :
    Throttling channelId throttleKey minutes { store with clock := store.clock + milliseconds } := by
  refine ⟨fun delivery member isSent => ?_, throttling.apart, throttling.alone,
    fun a member b there first second isPending isSent sentAt at_ => ?_⟩
  · obtain ⟨sentAt, at_, below⟩ := throttling.past delivery member isSent
    exact ⟨sentAt, at_, below.trans (by simp)⟩
  · have far := throttling.far a member b there first second isPending isSent sentAt at_
    change sentAt < store.clock + milliseconds - _
    omega

/-- At most one of some things has an id. -/
theorem length_filter_le_one {α β : Type} [DecidableEq β] {things : List α} {id : α → β}
    (distinct : (things.map id).Nodup)
    (wanted : β) : (things.filter fun thing => id thing = wanted).length ≤ 1 := by
  induction things with
  | nil => exact Nat.zero_le 1
  | cons first rest ih =>
    obtain ⟨apart, distinct⟩ := List.nodup_cons.mp distinct
    by_cases same : id first = wanted
    · have none_ : (rest.filter fun thing => id thing = wanted) = [] := by
        refine List.filter_eq_nil_iff.mpr fun thing member isWanted => apart ?_
        exact List.mem_map.mpr ⟨thing, member, (of_decide_eq_true isWanted).trans same.symm⟩
      rw [List.filter_cons_of_pos (by simpa using same), none_]
      exact le_refl 1
    · rw [List.filter_cons_of_neg (by simpa using same)]
      exact ih distinct

/-- What is due of one delivery: it, if its event and its channel are there. -/
def dueOf (store : AlertStore) (delivery : NotificationDelivery) : List Due :=
  (store.events.rows.filter (·.id = delivery.eventId)).flatMap fun event =>
    (store.channels.filter fun channel => channel.id = delivery.channelId ∧ channel.enabled).map fun channel =>
      ⟨delivery, event, channel⟩

theorem delivery_dueOf {due : Due} {delivery : NotificationDelivery} (member : due ∈ dueOf store delivery) :
    due.delivery = delivery := by
  obtain ⟨event, -, inside⟩ := List.mem_flatMap.mp member
  obtain ⟨channel, -, rfl⟩ := List.mem_map.mp inside
  rfl

theorem length_dueOf (ids : (store.events.rows.map (·.id)).Nodup) (channels : (store.channels.map (·.id)).Nodup)
    (delivery : NotificationDelivery) : (dueOf store delivery).length ≤ 1 := by
  have named : (store.channels.filter fun channel => channel.id = delivery.channelId ∧ channel.enabled).length ≤ 1 := by
    refine le_trans (List.Sublist.length_le ?_) (length_filter_le_one channels delivery.channelId)
    refine List.monotone_filter_right _ fun channel both => ?_
    exact decide_eq_true (of_decide_eq_true both).1
  have one := length_filter_le_one ids delivery.eventId
  unfold dueOf
  rcases found : store.events.rows.filter (·.id = delivery.eventId) with _ | ⟨event, _ | ⟨other, rest⟩⟩
  · rw [found]
    exact Nat.zero_le 1
  · rw [found, List.flatMap_singleton, List.length_map]
    exact named
  · rw [found] at one
    simp at one

/-- A drain selects each delivery once, and only what is pending. -/
theorem due_coherent (ids : (store.events.rows.map (·.id)).Nodup) (channels : (store.channels.map (·.id)).Nodup)
    (limit : Nat) : (∀ due ∈ store.due limit, due.delivery ∈ store.deliveries ∧ due.delivery.state = .pending) ∧
      ((store.due limit).map fun due => due.delivery.key).Nodup := by
  let pending := store.deliveries.rows.filter fun delivery =>
    delivery.state = .pending ∧ delivery.nextAttemptAt ≤ store.clock
  have selected : store.due limit = (sortBy (fun a b : Due => a.delivery.nextAttemptAt - b.delivery.nextAttemptAt)
      (pending.flatMap (dueOf store))).take limit := rfl
  constructor
  · intro due member
    rw [selected] at member
    obtain ⟨delivery, isPending, inside⟩ := List.mem_flatMap.mp (mem_sortBy.mp (List.mem_of_mem_take member))
    obtain ⟨held, waits⟩ := List.mem_filter.mp isPending
    rw [delivery_dueOf inside]
    exact ⟨held, (of_decide_eq_true waits).1⟩
  · rw [selected, List.map_take]
    refine List.Nodup.sublist (List.take_sublist _ _) (((sortBy_perm _ _).map _).nodup_iff.mpr ?_)
    rw [List.map_flatMap, List.nodup_flatMap]
    constructor
    · intro delivery _
      have short := length_dueOf ids channels delivery
      rcases found : dueOf store delivery with _ | ⟨first, _ | ⟨second, rest⟩⟩
      · exact List.nodup_nil
      · exact List.nodup_singleton _
      · rw [found] at short
        simp at short
    · have keys : (pending.map NotificationDelivery.key).Nodup :=
        store.deliveries.unique.sublist (List.filter_sublist.map _)
      refine (List.pairwise_map.mp keys).imp fun {a b} apart key inFirst inSecond => ?_
      obtain ⟨first, member, rfl⟩ := List.mem_map.mp inFirst
      obtain ⟨second, there, same⟩ := List.mem_map.mp inSecond
      rw [delivery_dueOf member, delivery_dueOf there] at same
      exact apart same.symm

/-- An attempt is the last of its drain, or the drain goes on with the rest. -/
theorem next_deliver (table : CaseTable) (store : AlertStore) (due : Due) (rest : List Due)
    (sends : NotificationChannel → RecordEventInput → Except Thrown Unit) (faults : List (Option Fault)) :
    ∃ after left, (left = rest ∨ left = []) ∧ Attempted store due.delivery.key after ∧
      Dispatcher.next table ⟨store, due :: rest⟩ (.deliver sends faults) = ⟨after, left⟩ := by
  have attempted := attempted_deliverDue sends faults store due
  unfold Dispatcher.next
  dsimp only
  split
  · exact ⟨_, rest, .inl rfl, attempted, rfl⟩
  · exact ⟨_, [], .inr rfl, attempted, rfl⟩

theorem recorded_next (table : CaseTable) (dispatcher : Dispatcher) (input : RecordEventInput)
    (faults : List (Option Fault)) :
    Recorded table dispatcher.store input (dispatcher.next table (.record input faults)).store :=
  (ensures_recordEvent dispatcher.store input faults).1

theorem coherent_next {dispatcher : Dispatcher} (coherent : Consonant dispatcher) (step : DispatchStep) :
    Consonant (dispatcher.next table step) := by
  obtain ⟨store, remaining⟩ := dispatcher
  obtain ⟨ids, channels, pending, once⟩ := coherent
  cases step with
  | record input faults =>
    have recorded := recorded_next table ⟨store, remaining⟩ input faults
    refine ⟨?_, ?_, fun due member => ?_, once⟩
    · rcases recorded.noted with same | more
      · rw [same]
        exact ids
      · rw [more, List.map_append, ids, List.length_append, List.length_singleton, List.range_succ]
        rfl
    · rw [recorded.settled]
      exact channels
    · obtain ⟨delivery, held, waits⟩ := pending due member
      exact ⟨delivery, recorded.deliveries.subset held, waits⟩
  | drain limit =>
    change Consonant (if remaining.isEmpty then ⟨store, store.due limit⟩ else ⟨store, remaining⟩)
    split
    · obtain ⟨waits, each⟩ := due_coherent (ids ▸ List.nodup_range) channels limit
      exact ⟨ids, channels, fun due member => ⟨due.delivery, (waits due member).1, rfl, (waits due member).2⟩, each⟩
    · exact ⟨ids, channels, pending, once⟩
  | deliver sends faults =>
    cases remaining with
    | nil => exact ⟨ids, channels, pending, once⟩
    | cons due rest =>
      obtain ⟨after, left, which, attempted, same⟩ := next_deliver table store due rest sends faults
      obtain ⟨change, -, rows⟩ := attempted.changed
      obtain ⟨apart, distinct⟩ := List.nodup_cons.mp once
      rw [same]
      have inside : left ⊆ rest := by
        rcases which with rfl | rfl
        · exact fun _ member => member
        · exact List.nil_subset rest
      refine ⟨?_, ?_, fun other member => ?_, ?_⟩
      · rw [attempted.settled]
        exact ids
      · exact attempted.channels ▸ channels
      · obtain ⟨delivery, held, isKey, waits⟩ := pending other (List.mem_cons_of_mem _ (inside member))
        refine ⟨delivery, ?_, isKey, waits⟩
        have differs : delivery.key ≠ due.delivery.key := fun equal =>
          apart (List.mem_map.mpr ⟨other, inside member, isKey.symm.trans equal⟩)
        rw [KeyedTable.mem_iff, rows]
        exact List.mem_map.mpr ⟨delivery, held, if_neg differs⟩
      · rcases which with rfl | rfl
        · exact distinct
        · exact List.nodup_nil
  | restart => exact ⟨ids, channels, fun due member => absurd member List.not_mem_nil, List.nodup_nil⟩
  | wait milliseconds => exact ⟨ids, channels, pending, once⟩

theorem throttling_next {dispatcher : Dispatcher}
    (throttling : Throttling channelId throttleKey minutes dispatcher.store)
    (positive : minutes > 0) (coherent : Consonant dispatcher) {step : DispatchStep}
    (effective : Effective table dispatcher.store channelId throttleKey minutes step)
    (spaced : Spaced table channelId throttleKey dispatcher step) :
    Throttling channelId throttleKey minutes (dispatcher.next table step).store := by
  obtain ⟨store, remaining⟩ := dispatcher
  cases step with
  | record input faults =>
    exact throttling_recorded throttling positive (recorded_next table ⟨store, remaining⟩ input faults) effective spaced
  | drain limit =>
    change Throttling channelId throttleKey minutes (if remaining.isEmpty then Dispatcher.mk _ _ else _).store
    split
    · exact throttling
    · exact throttling
  | deliver sends faults =>
    cases remaining with
    | nil => exact throttling
    | cons due rest =>
      obtain ⟨after, left, -, attempted, same⟩ := next_deliver table store due rest sends faults
      rw [same]
      exact throttling_attempted throttling attempted (coherent.pending due List.mem_cons_self)
  | restart => exact throttling
  | wait milliseconds => exact throttling_wait throttling milliseconds

/-- No step changes the rules. -/
theorem rules_next (dispatcher : Dispatcher) (step : DispatchStep) :
    (dispatcher.next table step).store.rules = dispatcher.store.rules := by
  obtain ⟨store, remaining⟩ := dispatcher
  cases step with
  | record input faults => exact (recorded_next table ⟨store, remaining⟩ input faults).rules
  | drain limit =>
    change (if remaining.isEmpty then Dispatcher.mk store _ else ⟨store, remaining⟩).store.rules = _
    split <;> rfl
  | deliver sends faults =>
    cases remaining with
    | nil => rfl
    | cons due rest =>
      obtain ⟨after, left, -, attempted, same⟩ := next_deliver table store due rest sends faults
      rw [same, attempted.settled]
  | restart => rfl
  | wait milliseconds => rfl

end Steps

/-! ## Runs -/

/-- An attempt that is answered ends with whether it was sent. -/
theorem deliverDue_ok (sends : NotificationChannel → RecordEventInput → Except Thrown Unit) (store : AlertStore)
    (due : Due) :
    ∃ sent, (perform (AlertStore.respond sends) store (deliverDue due)).1 = .ok sent := by
  cases sending : sends due.channel due.event.input with
  | ok =>
    refine ⟨true, ?_⟩
    change (perform (AlertStore.respond sends) store
      (CallProgram.tryCatch (awaited (sends due.channel due.event.input) >>= _)
      _)).1 = _
    rw [sending]
    rfl
  | error thrown =>
    refine ⟨false, ?_⟩
    change (perform (AlertStore.respond sends) store
      (CallProgram.tryCatch (awaited (sends due.channel due.event.input) >>= _)
      _)).1 = _
    rw [sending]
    rfl

/-- A drain with nothing between its deliveries is the whole program. -/
theorem drain_undisturbed (table : CaseTable) (sends : NotificationChannel → RecordEventInput → Except Thrown Unit)
    (store : AlertStore) (limit : Nat) :
    Dispatcher.run table ⟨store, []⟩ (.drain limit :: List.replicate (store.due limit).length (.deliver sends [])) =
      ⟨(perform (AlertStore.respond sends) store (drain limit)).2, []⟩ := by
  have loop : ∀ (due : List Due) (now : AlertStore) (sent : Nat),
      Dispatcher.run table ⟨now, due⟩ (List.replicate due.length (.deliver sends [])) =
        ⟨(perform (AlertStore.respond sends) now (due.foldlM (fun sent row => do
          let delivered ← deliverDue row
          return if delivered then sent + 1 else sent) sent)).2, []⟩ := by
    intro due
    induction due with
    | nil => exact fun _ _ => rfl
    | cons first rest ih =>
      intro now sent
      have quiet : Faultless [] := fun _ member => absurd member List.not_mem_nil
      obtain ⟨left, -, whole⟩ :=
        performUnder_quiet (AlertStore.respond sends) NotificationCall.failed now (deliverDue first) quiet
      obtain ⟨delivered, ok⟩ := deliverDue_ok sends now first
      cases run : perform (AlertStore.respond sends) now (deliverDue first) with
      | mk ended after =>
        rw [run] at ok whole
        cases ok
        have step : Dispatcher.next table ⟨now, first :: rest⟩ (.deliver sends []) = ⟨after, rest⟩ := by
          unfold Dispatcher.next
          dsimp only
          rw [whole]
        rw [List.length_cons, List.replicate_succ, Dispatcher.run, List.foldl_cons, step, List.foldlM_cons]
        refine (ih after (if delivered then sent + 1 else sent)).trans ?_
        rw [perform_bind (perform_bind run)]
  exact loop (store.due limit) store 0

/-- Nothing was recorded yet, and channels have ids of their own. -/
structure Unused (store : AlertStore) : Prop where
  events : store.events.rows = []
  deliveries : store.deliveries.rows = []
  channels : (store.channels.map (·.id)).Nodup

section Runs
variable {table : CaseTable} {start : AlertStore} {channelId throttleKey : JsString} {minutes : Nat}

theorem coherent_run (unused : Unused start) (steps : List DispatchStep) :
    Consonant (Dispatcher.run table ⟨start, []⟩ steps) := by
  induction steps using List.reverseRecOn with
  | nil =>
    refine ⟨?_, unused.channels, fun due member => absurd member List.not_mem_nil, List.nodup_nil⟩
    change start.events.rows.map _ = List.range start.events.rows.length
    rw [unused.events]
    rfl
  | append_singleton steps step ih =>
    rw [Dispatcher.run_concat]
    exact coherent_next ih step

theorem rules_run (steps : List DispatchStep) : (Dispatcher.run table ⟨start, []⟩ steps).store.rules = start.rules := by
  induction steps using List.reverseRecOn with
  | nil => rfl
  | append_singleton steps step ih => rw [Dispatcher.run_concat, rules_next, ih]

theorem throttling_run (unused : Unused start) (positive : minutes > 0) {steps : List DispatchStep}
    (effective : ∀ step ∈ steps, Effective table start channelId throttleKey minutes step)
    (spaced : ∀ earlier step later, steps = earlier ++ step :: later →
      Spaced table channelId throttleKey (Dispatcher.run table ⟨start, []⟩ earlier) step) :
    Throttling channelId throttleKey minutes (Dispatcher.run table ⟨start, []⟩ steps).store := by
  induction steps using List.reverseRecOn with
  | nil =>
    have none_ : ∀ delivery, delivery ∉ start.deliveries := fun delivery member => by
      rw [KeyedTable.mem_iff, unused.deliveries] at member
      cases member
    exact ⟨fun a member => absurd member (none_ a), fun a member => absurd member (none_ a),
      fun a member => absurd member (none_ a), fun a member => absurd member (none_ a)⟩
  | append_singleton steps step ih =>
    rw [Dispatcher.run_concat]
    refine throttling_next (ih (fun other member => effective other (List.mem_append_left _ member))
      fun earlier other later split => spaced earlier other (later ++ [step]) (by rw [split]; simp)) positive
      (coherent_run unused steps) ?_ (spaced steps step [] rfl)
    have own := effective step (List.mem_append_right _ List.mem_cons_self)
    cases step with
    | record input faults =>
      intro same target isTarget
      refine own same target ?_
      rw [AlertStore.targets, rules_run] at isTarget
      exact isTarget
    | drain | deliver | restart | wait => trivial

/-- **No two deliveries of a channel and a throttle key are sent within the window**,
in every run in which no event is queued for them while another delivery of theirs
is pending. -/
theorem throttle_kept (table : CaseTable) {start : AlertStore} (unused : Unused start)
    {channelId throttleKey : JsString}
    {minutes : Nat} (positive : minutes > 0) {steps : List DispatchStep}
    (effective : ∀ step ∈ steps, Effective table start channelId throttleKey minutes step)
    (spaced : ∀ earlier step later, steps = earlier ++ step :: later →
      Spaced table channelId throttleKey (Dispatcher.run table ⟨start, []⟩ earlier) step) :
    ∀ a ∈ (Dispatcher.run table ⟨start, []⟩ steps).store.deliveries,
      ∀ b ∈ (Dispatcher.run table ⟨start, []⟩ steps).store.deliveries, a ≠ b → Concerns channelId throttleKey a →
        Concerns channelId throttleKey b → a.state = .sent → b.state = .sent →
          ∃ first second, a.sentAt = some first ∧ b.sentAt = some second ∧
            AlertStore.window minutes < |first - second| := by
  have throttling := throttling_run unused positive effective spaced
  intro a member b there apart first second isSent also
  obtain ⟨earlier, at_, -⟩ := throttling.past a member isSent
  obtain ⟨later, also_, -⟩ := throttling.past b there also
  exact ⟨earlier, later, at_, also_,
    throttling.apart a member b there apart first second isSent also earlier at_ later also_⟩

end Runs

/-! ## A sample -/

/-- A failure of the sample job. -/
def burst (id : Int) : RecordEventInput :=
  runEvent .job_failed (js "a1") ⟨js "b1", js "Backup", js "MSSQLSERVER", js "sqlprod01"⟩
    ⟨js "b1", id, 0, 1700000000000, 5, none⟩ []

def delivered : NotificationChannel → RecordEventInput → Except Thrown Unit := fun _ _ => .ok ()

/-- One failure is sent before the next one comes, an hour later. -/
def spacedSteps : List DispatchStep :=
  [.record (burst 1) [], .drain 50, .deliver delivered [], .wait 3600001, .record (burst 2) [], .drain 50,
    .deliver delivered []]

/-- Two failures come before anything is sent. -/
def burstSteps : List DispatchStep :=
  [.record (burst 1) [], .record (burst 2) [], .drain 50, .deliver delivered [], .deliver delivered []]

theorem alertStore_unused : Unused alertStore := ⟨rfl, rfl, by decide⟩

theorem burst_effective (steps : List DispatchStep)
    (known : ∀ input faults, .record input faults ∈ steps → ∃ id, input = burst id) :
    ∀ step ∈ steps, Effective basicTable alertStore (js "c1") (js "job.failed:a1:b1") 60 step := by
  intro step member
  cases step with
  | record input faults =>
    obtain ⟨id, rfl⟩ := known input faults member
    intro _ target isTarget
    have only : alertStore.targets basicTable (burst id) = [(js "c1", ⟨js "r1", 60⟩)] := rfl
    rw [only, List.mem_singleton] at isTarget
    rw [(Prod.mk.inj isTarget).2]
  | drain | deliver | restart | wait => trivial

theorem sample_kept : ∃ a ∈ (Dispatcher.run basicTable ⟨alertStore, []⟩ spacedSteps).store.deliveries,
    ∃ b ∈ (Dispatcher.run basicTable ⟨alertStore, []⟩ spacedSteps).store.deliveries, a ≠ b ∧
      ∃ first second, a.sentAt = some first ∧ b.sentAt = some second ∧ AlertStore.window 60 < |first - second| := by
  have known : ∀ input faults, .record input faults ∈ spacedSteps → ∃ id, input = burst id := by
    intro input faults member
    simp only [spacedSteps, List.mem_cons, DispatchStep.record.injEq, reduceCtorEq, false_or, or_false,
      List.not_mem_nil]
      at member
    rcases member with ⟨rfl, -⟩ | ⟨rfl, -⟩
    · exact ⟨1, rfl⟩
    · exact ⟨2, rfl⟩
  have each : ∀ i, ∀ there : i < spacedSteps.length, Spaced basicTable (js "c1") (js "job.failed:a1:b1")
      (Dispatcher.run basicTable ⟨alertStore, []⟩ (spacedSteps.take i)) spacedSteps[i] := by
    decide +kernel
  have spaced : AtEach (fun earlier step => Spaced basicTable (js "c1") (js "job.failed:a1:b1")
      (Dispatcher.run basicTable ⟨alertStore, []⟩ earlier) step) spacedSteps := atEach_of_getElem each
  obtain ⟨a, member, b, there, apart, first, second, isSent, also⟩ :
      ∃ a ∈ (Dispatcher.run basicTable ⟨alertStore, []⟩ spacedSteps).store.deliveries.rows,
        ∃ b ∈ (Dispatcher.run basicTable ⟨alertStore, []⟩ spacedSteps).store.deliveries.rows, a ≠ b ∧
          Concerns (js "c1") (js "job.failed:a1:b1") a ∧ Concerns (js "c1") (js "job.failed:a1:b1") b ∧
            a.state = .sent ∧ b.state = .sent := by
    decide +kernel
  exact ⟨a, member, b, there, apart, throttle_kept basicTable alertStore_unused (by decide) (burst_effective _ known)
    spaced a member b there apart first second isSent also⟩

/-- **Counterexample.** Of two failures that are pending together both are sent, at
once. -/
theorem burst_sent_twice :
    (∀ step ∈ burstSteps, Effective basicTable alertStore (js "c1") (js "job.failed:a1:b1") 60 step) ∧
      ∃ a ∈ (Dispatcher.run basicTable ⟨alertStore, []⟩ burstSteps).store.deliveries.rows,
        ∃ b ∈ (Dispatcher.run basicTable ⟨alertStore, []⟩ burstSteps).store.deliveries.rows, a ≠ b ∧
          Concerns (js "c1") (js "job.failed:a1:b1") a ∧ Concerns (js "c1") (js "job.failed:a1:b1") b ∧
            a.state = .sent ∧ b.state = .sent ∧ a.sentAt = b.sentAt := by
  constructor
  · refine burst_effective _ fun input faults member => ?_
    simp only [burstSteps, List.mem_cons, DispatchStep.record.injEq, reduceCtorEq, or_false, List.not_mem_nil] at member
    rcases member with ⟨rfl, -⟩ | ⟨rfl, -⟩
    · exact ⟨1, rfl⟩
    · exact ⟨2, rfl⟩
  · decide +kernel

end RemoteSqlAgent
