import RemoteSqlAgent.AlertThrottle

/-! How often a notification is sent. One handler serves all that can fail in a delivery, so an
update that fails once the message is out puts the delivery back, and it is sent again. While no
such update is lost, a message is sent once at most, and tried eight times. -/
namespace RemoteSqlAgent
open Js CallProgram

/-! ## Attempts -/

/-- The sender was asked to send the message of a delivery, and whether it did. -/
structure SendAttempt where
  delivery : Nat × JsString
  succeeded : Bool
  deriving DecidableEq

section Attempts
variable (sends : NotificationChannel → RecordEventInput → Except Thrown Unit) (due : Due)
    (faults : List (Option Fault))

/-- The sender is asked. -/
def Asked : Bool := decide (faults.head?.join ≠ some .killed)

/-- It says that the message is sent. -/
def SendsOut : Bool := faults.head?.join = none && (sends due.channel due.event.input).toBool

/-- The row of a message that was sent is not put back. It is marked and the channel is updated, or
the process ends between the two, or putting it back fails too. Or it is not marked, at the last attempt. -/
def Marked : Prop :=
  faults.head?.join = none ∧ (faults.tail.head?.join = none ∨ faults.tail.head?.join = some .killed ∨
      faults.tail.tail.head?.join = some .refused ∨ faults.tail.tail.head?.join = some .killed) ∨
    faults.head?.join = some .refused ∧ due.delivery.attempts + 1 ≥ MAX_ATTEMPTS ∧ (faults.tail.head?.join = none ∨
      faults.tail.head?.join = some .unheard)

/-- No update is lost that matters: the row of a message that was sent is not put back, and an
attempt at one that was not is counted. -/
def Settled : Prop :=
  (SendsOut sends due faults = true → Marked due faults.tail) ∧
  (SendsOut sends due faults = false → Asked faults = true →
    faults.tail.head?.join = none ∨ faults.tail.head?.join = some .unheard)

instance : Decidable (Marked due faults) := inferInstanceAs (Decidable (_ ∧ (_ ∨ _ ∨ _ ∨ _) ∨ _ ∧ _ ∧ (_ ∨ _)))

instance : Decidable (Settled sends due faults) :=
  inferInstanceAs (Decidable ((_ = true → _) ∧ (_ = false → _ = true → _)))

end Attempts

namespace Dispatcher

/-- The attempts of a step. -/
def attempts (dispatcher : Dispatcher) : DispatchStep → List SendAttempt
  | .deliver sends faults =>
    (dispatcher.remaining.head?.filter fun _ => Asked faults).toList.map fun due =>
      ⟨due.delivery.key, SendsOut sends due faults⟩
  | _ => []

/-- The attempts of a run, in order. -/
def attemptsOf (table : CaseTable) : Dispatcher → List DispatchStep → List SendAttempt
  | _, [] => []
  | dispatcher, step :: later => dispatcher.attempts step ++ attemptsOf table (dispatcher.next table step) later

/-- No update of a delivery is lost in a step that matters. -/
def Keeps (dispatcher : Dispatcher) : DispatchStep → Prop
  | .deliver sends faults => ∀ due ∈ dispatcher.remaining.head?, Settled sends due faults
  | _ => True

instance (dispatcher : Dispatcher) (step : DispatchStep) : Decidable (dispatcher.Keeps step) :=
  match step with
  | .deliver sends faults => inferInstanceAs (Decidable (∀ due ∈ dispatcher.remaining.head?, Settled sends due faults))
  | .record .. | .drain _ | .restart | .wait _ => isTrue trivial

theorem attemptsOf_concat (table : CaseTable) (steps : List DispatchStep) (step : DispatchStep) :
    ∀ dispatcher : Dispatcher,
    dispatcher.attemptsOf table (steps ++ [step]) =
      dispatcher.attemptsOf table steps ++ (dispatcher.run table steps).attempts step := by
  induction steps with
  | nil =>
    intro dispatcher
    simp [attemptsOf, run]
  | cons first rest ih =>
    intro dispatcher
    rw [List.cons_append, attemptsOf, ih, attemptsOf, List.append_assoc]
    rfl

end Dispatcher

/-! ## One delivery -/

/-- What an attempt makes of its delivery. -/
structure Counts (due : Due) (succeeded : Bool) (change : NotificationDelivery → NotificationDelivery) : Prop where
  key : ∀ delivery, (change delivery).key = delivery.key
  attempts : ∀ delivery, (change delivery).attempts = due.delivery.attempts + 1
  waits : ∀ delivery, (change delivery).state = .pending → succeeded = false ∧ due.delivery.attempts + 1 < MAX_ATTEMPTS

section Delivery
variable {sends : NotificationChannel → RecordEventInput → Except Thrown Unit} {store : AlertStore} {due : Due}
  {faults : List (Option Fault)}

/-- What the handler of a delivery does with what was thrown. -/
def handleThrown (due : Due) (thrown : Thrown) : NotificationProgram Bool :=
  let nextAttempts := due.delivery.attempts + 1
  let giveUp := ¬ thrown.retryable ∨ nextAttempts ≥ MAX_ATTEMPTS
  .call (.markFailed due.delivery.key (if giveUp then .failed else .pending) nextAttempts thrown.message
      (min (2 ^ nextAttempts * 1000) 600000)) fun marked : Except Thrown Unit => do
    awaited marked
    .call (.channelFailed due.channel.id thrown.message) fun updated : Except Thrown Unit => do
      awaited updated
      return false

/-- What follows when a message was sent. -/
def markDelivered (due : Due) : NotificationProgram Bool :=
  (.call (.markSent due.delivery.key (due.delivery.attempts + 1)) fun marked : Except Thrown Unit => do
    awaited marked
    .call (.channelDelivered due.channel.id) fun updated : Except Thrown Unit => do
      awaited updated
      return true : NotificationProgram Bool).tryCatch (handleThrown due)

/-- What follows on the answer of the sender. -/
def onAnswer (due : Due) : Except Thrown Unit → NotificationProgram Bool
  | .ok _ => markDelivered due
  | .error thrown => handleThrown due thrown

theorem deliverDue_eq (due : Due) :
    deliverDue due = .call (.send due.channel due.event.input) fun sent : Except Thrown Unit => onAnswer due sent := by
  refine congrArg (CallProgram.call _) (funext fun sent : Except Thrown Unit => ?_)
  cases sent with
  | ok value => rfl
  | error thrown => rfl

/-- The deliveries that a program leaves. -/
def rowsAfter (sends : NotificationChannel → RecordEventInput → Except Thrown Unit) (faults : List (Option Fault))
    (store : AlertStore) (program : NotificationProgram Bool) : List NotificationDelivery :=
  (performUnder (AlertStore.respond sends) NotificationCall.failed faults store program).2.2.deliveries.rows

section Call
variable {request : NotificationCall} {next : NotificationAnswer request → NotificationProgram Bool}

theorem rowsAfter_heard (heard : faults.head?.join = none) :
    rowsAfter sends faults store (.call request next) =
      rowsAfter sends faults.tail (store.respond sends request).2 (next (store.respond sends request).1) := by
  rw [rowsAfter, performUnder_done heard]
  rfl

theorem rowsAfter_unheard (unheard : faults.head?.join = some .unheard) :
    rowsAfter sends faults store (.call request next) =
      rowsAfter sends faults.tail (store.respond sends request).2 (next (NotificationCall.failed request)) := by
  rw [rowsAfter, performUnder_unheard unheard]
  rfl

theorem rowsAfter_refused (refused : faults.head?.join = some .refused) :
    rowsAfter sends faults store (.call request next) =
      rowsAfter sends faults.tail store (next (NotificationCall.failed request)) := by
  rw [rowsAfter, performUnder_refused refused]
  rfl

theorem rowsAfter_killed (killed : faults.head?.join = some .killed) :
    rowsAfter sends faults store (.call request next) = store.deliveries.rows := by
  rw [rowsAfter, performUnder_killed killed]

end Call

/-- A call about a channel. -/
def AboutChannel : NotificationCall → Prop
  | .channelDelivered _ | .channelFailed .. => True
  | _ => False

/-- Updates of channels leave deliveries as they are. -/
theorem rowsAfter_channels {program : NotificationProgram Bool} (only : Within AboutChannel program) :
    rowsAfter sends faults store program = store.deliveries.rows := by
  induction only generalizing store faults with
  | done value => rfl
  | throw error => rfl
  | @call request next about _ ih =>
    have same : (store.respond sends request).2.deliveries = store.deliveries := by
      cases request with
      | channelDelivered | channelFailed => rfl
      | insertEvent | selectRules | selectSent | insertDelivery | selectJobs | selectOutcomes | selectFailedStep
      | selectDue | send | markSent | markFailed => exact about.elim
    cases head : faults.head?.join with
    | none => rw [rowsAfter_heard head, ih, same]
    | some fault =>
      cases fault with
      | refused => rw [rowsAfter_refused head, ih]
      | unheard => rw [rowsAfter_unheard head, ih, same]
      | killed => exact rowsAfter_killed head

/-- What follows on the update of a delivery that failed. -/
theorem channelFailed_only (channelId message : JsString) (marked : Except Thrown Unit) : Within AboutChannel
    (awaited marked >>= fun _ => .call (.channelFailed channelId message) fun updated : Except Thrown Unit =>
      awaited updated >>= fun _ => pure false : NotificationProgram Bool) := by
  refine .bind (within_awaited_of marked) fun _ => .call trivial fun updated : Except Thrown Unit => ?_
  exact .bind (within_awaited_of updated) fun _ => .done _

/-- A failed attempt is counted, if the update that counts it is made. -/
theorem handleThrown_counts (thrown : Thrown) (made : faults.head?.join = none ∨ faults.head?.join = some .unheard) :
    ∃ change, Counts due false change ∧ rowsAfter sends faults store (handleThrown due thrown) =
      store.deliveries.rows.map fun delivery =>
        if delivery.key = due.delivery.key then change delivery else delivery := by
  let giveUp := ¬ thrown.retryable ∨ due.delivery.attempts + 1 ≥ MAX_ATTEMPTS
  let change (delivery : NotificationDelivery) : NotificationDelivery := { delivery with
    state := if giveUp then .failed else .pending
    attempts := due.delivery.attempts + 1
    lastError := some thrown.message
    nextAttemptAt := store.clock + (min (2 ^ (due.delivery.attempts + 1) * 1000) 600000 : Nat) }
  have waits : ∀ delivery, (change delivery).state = .pending → due.delivery.attempts + 1 < MAX_ATTEMPTS := by
    intro delivery isPending
    by_contra last
    have gives : giveUp := .inr (not_lt.mp last)
    have failed : (change delivery).state = .failed := if_pos gives
    rw [failed] at isPending
    cases isPending
  refine ⟨change, ⟨fun _ => rfl, fun _ => rfl, fun delivery isPending => ⟨rfl, waits delivery isPending⟩⟩, ?_⟩
  rcases made with heard | unheard
  · exact (rowsAfter_heard heard).trans (rowsAfter_channels (channelFailed_only _ _ _))
  · exact (rowsAfter_unheard unheard).trans (rowsAfter_channels (channelFailed_only _ _ _))

/-- If the update that counts a failed attempt is lost, the rows stay. -/
theorem handleThrown_lost (thrown : Thrown)
    (lost : faults.head?.join = some .refused ∨ faults.head?.join = some .killed) :
    rowsAfter sends faults store (handleThrown due thrown) = store.deliveries.rows := by
  rcases lost with refused | killed
  · exact (rowsAfter_refused refused).trans (rowsAfter_channels (channelFailed_only _ _ _))
  · exact rowsAfter_killed killed

/-- A row that is marked stays so, if the channel is updated or putting the row back fails too. -/
theorem channelDelivered_keeps (kept : faults.head?.join = none ∨ faults.head?.join = some .killed ∨
    faults.tail.head?.join = some .refused ∨ faults.tail.head?.join = some .killed) :
    rowsAfter sends faults store ((.call (.channelDelivered due.channel.id) fun updated : Except Thrown Unit => do
      awaited updated
      return true : NotificationProgram Bool).tryCatch (handleThrown due)) = store.deliveries.rows := by
  cases head : faults.head?.join with
  | none => exact rowsAfter_heard head
  | some fault =>
    cases fault with
    | killed => exact rowsAfter_killed head
    | refused | unheard =>
      have lost : faults.tail.head?.join = some .refused ∨ faults.tail.head?.join = some .killed := by
        simpa [head] using kept
      first
        | exact (rowsAfter_refused head).trans (handleThrown_lost _ lost)
        | exact (rowsAfter_unheard head).trans (handleThrown_lost _ lost)

/-- A successful attempt does not leave its delivery pending, if no update is lost that matters. -/
theorem markDelivered_counts (marked : Marked due faults) :
    ∃ change, Counts due true change ∧ rowsAfter sends faults store (markDelivered due) =
      store.deliveries.rows.map fun delivery =>
        if delivery.key = due.delivery.key then change delivery else delivery := by
  rcases marked with ⟨made, kept⟩ | ⟨refused, last, made⟩
  · let change (delivery : NotificationDelivery) : NotificationDelivery := { delivery with
      state := .sent, sentAt := some store.clock, attempts := due.delivery.attempts + 1, lastError := none }
    have counts : Counts due true change := by
      refine ⟨fun _ => rfl, fun _ => rfl, fun delivery isPending => ?_⟩
      cases isPending
    exact ⟨change, counts, (rowsAfter_heard made).trans (channelDelivered_keeps kept)⟩
  · obtain ⟨change, counts, rows⟩ := @handleThrown_counts sends store due faults.tail
      (.error (js "Connection terminated unexpectedly")) made
    have spent : Counts due true change := by
      refine ⟨counts.key, counts.attempts, fun delivery isPending => ?_⟩
      exact absurd (counts.waits delivery isPending).2 (not_lt.mpr last)
    exact ⟨change, spent, (rowsAfter_refused refused).trans rows⟩

variable (store) in
/-- What an attempt leaves, if no update that matters is lost. -/
theorem deliverDue_counts (settled : Settled sends due faults) :
    (Asked faults = false ∧ rowsAfter sends faults store (deliverDue due) = store.deliveries.rows) ∨
      (Asked faults = true ∧ ∃ change, Counts due (SendsOut sends due faults) change ∧
        rowsAfter sends faults store (deliverDue due) = store.deliveries.rows.map fun delivery =>
          if delivery.key = due.delivery.key then change delivery else delivery) := by
  cases head : faults.head?.join with
  | none =>
    have asked : Asked faults = true := by simp [Asked, head]
    have onward : rowsAfter sends faults store (deliverDue due) =
        rowsAfter sends faults.tail store (onAnswer due (sends due.channel due.event.input)) := by
      rw [deliverDue_eq]
      exact rowsAfter_heard head
    refine .inr ⟨asked, ?_⟩
    rw [onward]
    cases sending : sends due.channel due.event.input with
    | ok =>
      have out : SendsOut sends due faults = true := by simp [SendsOut, head, sending, Except.toBool]
      rw [out]
      exact markDelivered_counts (settled.1 out)
    | error thrown =>
      have out : SendsOut sends due faults = false := by simp [SendsOut, sending, Except.toBool]
      rw [out]
      exact handleThrown_counts thrown (settled.2 out asked)
  | some fault =>
    have out : SendsOut sends due faults = false := by simp [SendsOut, head]
    rw [out]
    cases fault with
    | killed => exact .inl ⟨by simp [Asked, head], rowsAfter_killed head⟩
    | refused =>
      have asked : Asked faults = true := by simp [Asked, head]
      obtain ⟨change, counts, rows⟩ := @handleThrown_counts sends store due faults.tail _ (settled.2 out asked)
      exact .inr ⟨asked, change, counts, (rowsAfter_refused head).trans rows⟩
    | unheard =>
      have asked : Asked faults = true := by simp [Asked, head]
      obtain ⟨change, counts, rows⟩ := @handleThrown_counts sends store due faults.tail _ (settled.2 out asked)
      exact .inr ⟨asked, change, counts, (rowsAfter_unheard head).trans rows⟩

end Delivery

/-! ## Tallies -/

/-- What was attempted so far, against the deliveries. -/
structure Tallied (log : List SendAttempt) (dispatcher : Dispatcher) : Prop where
  held : ∀ attempt ∈ log, dispatcher.store.deliveries.Holds attempt.delivery
  counted : ∀ delivery ∈ dispatcher.store.deliveries,
    (log.filter fun attempt => attempt.delivery = delivery.key).length ≤ delivery.attempts
  few : ∀ delivery ∈ dispatcher.store.deliveries, delivery.attempts ≤ MAX_ATTEMPTS
  waits : ∀ delivery ∈ dispatcher.store.deliveries, delivery.state = .pending → delivery.attempts < MAX_ATTEMPTS ∧
    ∀ attempt ∈ log, attempt.delivery = delivery.key → attempt.succeeded = false
  once : log.Pairwise fun earlier later => earlier.succeeded = true → later.delivery ≠ earlier.delivery
  current : ∀ due ∈ dispatcher.remaining, due.delivery ∈ dispatcher.store.deliveries ∧ due.delivery.state = .pending

section Steps
variable {log : List SendAttempt} {table : CaseTable} {store after : AlertStore} {remaining left : List Due}

/-- New deliveries were not attempted yet. -/
theorem tallied_recorded (tallied : Tallied log ⟨store, remaining⟩)
    (older : store.deliveries.rows <+: after.deliveries.rows)
    (newer : ∀ delivery ∈ after.deliveries, delivery ∈ store.deliveries ∨
      (delivery.attempts = 0 ∧ ¬ store.deliveries.Holds delivery.key)) : Tallied log ⟨after, remaining⟩ := by
  have unused : ∀ delivery : NotificationDelivery, ¬ store.deliveries.Holds delivery.key →
      ∀ attempt ∈ log, attempt.delivery ≠ delivery.key :=
    fun delivery free attempt member same => free (same ▸ tallied.held attempt member)
  refine ⟨fun attempt member => ?_, fun delivery member => ?_, fun delivery member => ?_,
    fun delivery member isPending => ?_,
    tallied.once, fun due member => ?_⟩
  · obtain ⟨delivery, there, same⟩ := KeyedTable.holds_iff.mp (tallied.held attempt member)
    exact KeyedTable.holds_iff.mpr ⟨delivery, older.subset there, same⟩
  · rcases newer delivery member with before | ⟨-, free⟩
    · exact tallied.counted delivery before
    · have none_ : (log.filter fun attempt => attempt.delivery = delivery.key) = [] :=
        List.filter_eq_nil_iff.mpr fun attempt there => by simpa using unused delivery free attempt there
      simp [none_]
  · rcases newer delivery member with before | ⟨zero, -⟩
    · exact tallied.few delivery before
    · simp [zero]
  · rcases newer delivery member with before | ⟨zero, free⟩
    · exact tallied.waits delivery before isPending
    · exact ⟨by simp [zero, MAX_ATTEMPTS], fun attempt there same => absurd same (unused delivery free attempt there)⟩
  · exact ⟨older.subset (tallied.current due member).1, (tallied.current due member).2⟩

/-- An attempt is counted by its delivery, and none follows one that was sent. -/
theorem tallied_attempted {due : Due} {rest : List Due} {succeeded : Bool}
    {change : NotificationDelivery → NotificationDelivery}
    (tallied : Tallied log ⟨store, due :: rest⟩) (once : ((due :: rest).map fun due => due.delivery.key).Nodup)
    (counts : Counts due succeeded change)
    (rows : after.deliveries.rows = store.deliveries.rows.map fun delivery =>
      if delivery.key = due.delivery.key then change delivery else delivery)
    (inside : left ⊆ rest) : Tallied (log ++ [⟨due.delivery.key, succeeded⟩]) ⟨after, left⟩ := by
  obtain ⟨here, isPending⟩ := tallied.current due List.mem_cons_self
  obtain ⟨below, unsent⟩ := tallied.waits due.delivery here isPending
  -- Every delivery is as it was, or it is the one that was attempted.
  have sources : ∀ delivery, delivery ∈ after.deliveries ↔
      delivery ∈ store.deliveries ∧ delivery.key ≠ due.delivery.key ∨ delivery = change due.delivery :=
    fun delivery => KeyedTable.mem_rewritten here rows
  have changed : change due.delivery ∈ after.deliveries := (sources _).mpr (.inr rfl)
  have same : ∀ delivery ∈ store.deliveries, delivery.key ≠ due.delivery.key → delivery ∈ after.deliveries :=
    fun delivery member apart => (sources delivery).mpr (.inl ⟨member, apart⟩)
  refine ⟨fun attempt member => ?_, fun delivery member => ?_, fun delivery member => ?_,
    fun delivery member waiting => ?_, ?_, fun other member => ?_⟩
  · rcases List.mem_append.mp member with earlier | now
    · obtain ⟨delivery, there, isKey⟩ := KeyedTable.holds_iff.mp (tallied.held attempt earlier)
      by_cases own : delivery.key = due.delivery.key
      · exact KeyedTable.holds_iff.mpr ⟨_, changed, (counts.key _).trans (own.symm.trans isKey)⟩
      · exact KeyedTable.holds_iff.mpr ⟨delivery, same delivery there own, isKey⟩
    · rw [List.mem_singleton.mp now]
      exact KeyedTable.holds_iff.mpr ⟨_, changed, counts.key _⟩
  · rcases (sources delivery).mp member with ⟨there, apart⟩ | rfl
    · simpa [List.filter_append, Ne.symm apart] using tallied.counted delivery there
    · have counted := tallied.counted due.delivery here
      rw [List.filter_append, List.length_append, counts.key, counts.attempts]
      simpa using counted
  · rcases (sources delivery).mp member with ⟨there, -⟩ | rfl
    · exact tallied.few delivery there
    · rw [counts.attempts]
      exact below
  · rcases (sources delivery).mp member with ⟨there, apart⟩ | rfl
    · obtain ⟨more, quiet⟩ := tallied.waits delivery there waiting
      refine ⟨more, fun attempt inLog isKey => ?_⟩
      rcases List.mem_append.mp inLog with earlier | now
      · exact quiet attempt earlier isKey
      · rw [List.mem_singleton.mp now] at isKey
        exact absurd isKey.symm apart
    · obtain ⟨failed, more⟩ := counts.waits _ waiting
      refine ⟨by rwa [counts.attempts], fun attempt inLog isKey => ?_⟩
      rcases List.mem_append.mp inLog with earlier | now
      · exact unsent attempt earlier (isKey.trans (counts.key _))
      · rw [List.mem_singleton.mp now]
        exact failed
  · refine List.pairwise_append.mpr ⟨tallied.once, List.pairwise_singleton _ _,
      fun attempt earlier now isNow sent => ?_⟩
    rw [List.mem_singleton.mp isNow]
    intro isKey
    rw [unsent attempt earlier isKey.symm] at sent
    cases sent
  · obtain ⟨there, waiting⟩ := tallied.current other (List.mem_cons_of_mem _ (inside member))
    have apart : other.delivery.key ≠ due.delivery.key := fun isKey =>
      (List.nodup_cons.mp once).1 (List.mem_map.mpr ⟨other, inside member, isKey⟩)
    exact ⟨same other.delivery there apart, waiting⟩

/-- What recording adds was not attempted, and was not there. -/
theorem newer_recorded (store : AlertStore) (remaining : List Due) (input : RecordEventInput)
    (faults : List (Option Fault)) :
    ∀ delivery ∈ (Dispatcher.next table ⟨store, remaining⟩ (.record input faults)).store.deliveries,
      delivery ∈ store.deliveries ∨ (delivery.attempts = 0 ∧ ¬ store.deliveries.Holds delivery.key) := by
  let Newer (now : AlertStore) : Prop := Raises store now ∧ ∀ delivery ∈ now.deliveries,
    delivery ∈ store.deliveries ∨ (delivery.attempts = 0 ∧ ¬ store.deliveries.Holds delivery.key)
  have only : Within (Asks fun _ => True) (recordEvent table input) := within_recordEvent trivial
  have kept : Newer (Dispatcher.next table ⟨store, remaining⟩ (.record input faults)).store := by
    refine performUnder_keeps only (fun now call asks newer => ?_) ⟨.refl store, fun _ member => .inl member⟩
    refine ⟨newer.1.trans (records_respond asks), fun delivery member => ?_⟩
    cases call with
    | insertEvent input =>
      change delivery ∈ (now.insertEvent input).2.deliveries at member
      unfold AlertStore.insertEvent at member
      split at member
      · exact newer.2 delivery member
      · exact newer.2 delivery member
    | insertDelivery eventId ruleId channelId throttleKey state lastError =>
      change delivery ∈ (now.insertDelivery _).2.deliveries at member
      unfold AlertStore.insertDelivery at member
      split at member
      · exact newer.2 delivery member
      · rename_i free
        split at member
        · rcases List.mem_append.mp member with before | new
          · exact newer.2 delivery before
          · rw [List.mem_singleton.mp new]
            exact .inr ⟨rfl, fun held => free (newer.1.holds held)⟩
        · exact newer.2 delivery member
    | selectRules | selectSent | selectJobs | selectOutcomes | selectFailedStep => exact newer.2 delivery member
    | selectDue | send | markSent | channelDelivered | markFailed | channelFailed => exact asks.elim
  exact kept.2

/-- An attempt leaves the rows that its program leaves, and no more to send than before. -/
theorem rows_deliver (table : CaseTable) (store : AlertStore) (due : Due) (rest : List Due)
    (sends : NotificationChannel → RecordEventInput → Except Thrown Unit) (faults : List (Option Fault)) :
    (Dispatcher.next table ⟨store, due :: rest⟩ (.deliver sends faults)).store.deliveries.rows =
        rowsAfter sends faults store (deliverDue due) ∧
      (Dispatcher.next table ⟨store, due :: rest⟩ (.deliver sends faults)).remaining ⊆ rest := by
  unfold Dispatcher.next
  dsimp only
  split
  · exact ⟨rfl, fun _ member => member⟩
  · exact ⟨rfl, List.nil_subset rest⟩

variable {dispatcher : Dispatcher} {step : DispatchStep}

/-- Nothing attempted, and the same rows. -/
theorem tallied_same (tallied : Tallied log ⟨store, remaining⟩)
    (rows : after.deliveries.rows = store.deliveries.rows) (inside : left ⊆ remaining) : Tallied log ⟨after, left⟩ := by
  have same : after.deliveries = store.deliveries := by
    cases now : after.deliveries with
    | mk _ _ =>
      cases before : store.deliveries with
      | mk _ _ =>
        rw [now, before] at rows
        cases rows
        rfl
  obtain ⟨held, counted, few, waits, once, current⟩ := tallied
  rw [← same] at held counted few waits current
  exact ⟨held, counted, few, waits, once, fun due member => current due (inside member)⟩

theorem tallied_next (tallied : Tallied log dispatcher) (coherent : Consonant dispatcher)
    (keeps : dispatcher.Keeps step) :
    Tallied (log ++ dispatcher.attempts step) (dispatcher.next table step) := by
  obtain ⟨store, remaining⟩ := dispatcher
  cases step with
  | record input faults =>
    refine (List.append_nil log).symm ▸ ?_
    exact tallied_recorded tallied (recorded_next table ⟨store, remaining⟩ input faults).deliveries
      (newer_recorded store remaining input faults)
  | drain limit =>
    change Tallied (log ++ []) (if remaining.isEmpty then ⟨store, store.due limit⟩ else ⟨store, remaining⟩)
    rw [List.append_nil]
    split
    · have selected := (due_coherent (coherent.ids ▸ List.nodup_range) coherent.channels limit).1
      exact ⟨tallied.held, tallied.counted, tallied.few, tallied.waits, tallied.once, selected⟩
    · exact tallied
  | deliver sends faults =>
    cases remaining with
    | nil =>
      change Tallied (log ++ []) ⟨store, []⟩
      rw [List.append_nil]
      exact tallied
    | cons due rest =>
      obtain ⟨rows, inside⟩ := rows_deliver table store due rest sends faults
      have settled : Settled sends due faults := keeps due rfl
      rcases deliverDue_counts store settled with ⟨unasked, same⟩ | ⟨asked, change, counts, mapped⟩
      · have none_ : Dispatcher.attempts ⟨store, due :: rest⟩ (.deliver sends faults) = [] := by
          simp [Dispatcher.attempts, unasked]
        rw [none_, List.append_nil]
        exact tallied_same tallied (rows.trans same) fun other member => List.mem_cons_of_mem _ (inside member)
      · have one : Dispatcher.attempts ⟨store, due :: rest⟩ (.deliver sends faults) =
            [⟨due.delivery.key, SendsOut sends due faults⟩] := by
          simp [Dispatcher.attempts, asked]
        rw [one]
        exact tallied_attempted tallied coherent.once counts (rows.trans mapped) inside
  | restart =>
    refine (List.append_nil log).symm ▸ ?_
    exact tallied_same tallied rfl (List.nil_subset remaining)
  | wait milliseconds =>
    refine (List.append_nil log).symm ▸ ?_
    exact tallied_same tallied rfl fun _ member => member

variable (table) in
/-- What is not pending is left alone. -/
theorem settled_next (tallied : Tallied log dispatcher) (coherent : Consonant dispatcher)
    (keeps : dispatcher.Keeps step)
    {delivery : NotificationDelivery} (member : delivery ∈ dispatcher.store.deliveries)
    (done_ : delivery.state ≠ .pending) :
    (∀ attempt ∈ dispatcher.attempts step, attempt.delivery ≠ delivery.key) ∧
      delivery ∈ (dispatcher.next table step).store.deliveries := by
  obtain ⟨store, remaining⟩ := dispatcher
  cases step with
  | record input faults =>
    refine ⟨fun attempt none_ => absurd none_ List.not_mem_nil, ?_⟩
    exact (recorded_next table ⟨store, remaining⟩ input faults).deliveries.subset member
  | drain limit =>
    refine ⟨fun attempt none_ => absurd none_ List.not_mem_nil, ?_⟩
    change delivery ∈ (if remaining.isEmpty then Dispatcher.mk store _ else ⟨store, remaining⟩).store.deliveries
    split
    · exact member
    · exact member
  | deliver sends faults =>
    cases remaining with
    | nil => exact ⟨fun attempt none_ => absurd none_ List.not_mem_nil, member⟩
    | cons due rest =>
      obtain ⟨here, isPending⟩ := tallied.current due List.mem_cons_self
      have apart : delivery.key ≠ due.delivery.key := fun same =>
        done_ (store.deliveries.eq_of_key member here same ▸ isPending)
      constructor
      · intro attempt attempted
        have isOwn : attempt.delivery = due.delivery.key := by
          simp only [Dispatcher.attempts, List.head?_cons, List.mem_map, Option.mem_toList, Option.filter_eq_some_iff]
            at attempted
          obtain ⟨other, ⟨same, -⟩, rfl⟩ := attempted
          cases same
          rfl
        rw [isOwn]
        exact apart.symm
      · obtain ⟨rows, -⟩ := rows_deliver table store due rest sends faults
        rw [KeyedTable.mem_iff, rows]
        rcases deliverDue_counts store (keeps due rfl) with ⟨-, same⟩ | ⟨-, change, -, mapped⟩
        · rw [same]
          exact member
        · rw [mapped]
          exact List.mem_map.mpr ⟨delivery, member, if_neg apart⟩
  | restart => exact ⟨fun attempt none_ => absurd none_ List.not_mem_nil, member⟩
  | wait milliseconds => exact ⟨fun attempt none_ => absurd none_ List.not_mem_nil, member⟩

end Steps

/-! ## Runs -/

section Runs
variable {table : CaseTable} {start : AlertStore} {steps : List DispatchStep}

/-- No update that matters is lost in a run. -/
def KeepsIn (table : CaseTable) (start : AlertStore) : List DispatchStep → Prop :=
  AtEach fun earlier step => (Dispatcher.run table ⟨start, []⟩ earlier).Keeps step

theorem tallied_run (unused : Unused start) (keeps : KeepsIn table start steps) :
    Tallied (Dispatcher.attemptsOf table ⟨start, []⟩ steps) (Dispatcher.run table ⟨start, []⟩ steps) := by
  induction steps using List.reverseRecOn with
  | nil =>
    have none_ : ∀ delivery, delivery ∉ start.deliveries := fun delivery member => by
      rw [KeyedTable.mem_iff, unused.deliveries] at member
      cases member
    exact ⟨fun attempt member => absurd member List.not_mem_nil, fun delivery member => absurd member (none_ delivery),
      fun delivery member => absurd member (none_ delivery), fun delivery member => absurd member (none_ delivery),
      List.Pairwise.nil, fun due member => absurd member List.not_mem_nil⟩
  | append_singleton steps step ih =>
    obtain ⟨before, now⟩ := atEach_concat.mp keeps
    rw [Dispatcher.run_concat, Dispatcher.attemptsOf_concat]
    exact tallied_next (ih before) (coherent_run unused steps) now

/-- What is not pending is not attempted again, and stays. -/
theorem settled_run (unused : Unused start) (earlier : List DispatchStep) {later : List DispatchStep}
    (keeps : KeepsIn table start (earlier ++ later)) {delivery : NotificationDelivery}
    (member : delivery ∈ (Dispatcher.run table ⟨start, []⟩ earlier).store.deliveries)
    (done_ : delivery.state ≠ .pending) :
    (∀ attempt ∈ (Dispatcher.run table ⟨start, []⟩ earlier).attemptsOf table later, attempt.delivery ≠ delivery.key) ∧
      delivery ∈ (Dispatcher.run table ⟨start, []⟩ (earlier ++ later)).store.deliveries := by
  induction later using List.reverseRecOn with
  | nil =>
    rw [List.append_nil]
    exact ⟨fun attempt none_ => absurd none_ List.not_mem_nil, member⟩
  | append_singleton later step ih =>
    rw [← List.append_assoc] at keeps ⊢
    obtain ⟨before, now⟩ := atEach_concat.mp keeps
    obtain ⟨quiet, there⟩ := ih before
    obtain ⟨alsoQuiet, still⟩ := settled_next table (tallied_run unused before)
      (coherent_run unused (earlier ++ later)) now there done_
    have resumed : (Dispatcher.run table ⟨start, []⟩ earlier).run table later =
        Dispatcher.run table ⟨start, []⟩ (earlier ++ later) := by
      rw [Dispatcher.run, Dispatcher.run, Dispatcher.run, List.foldl_append]
    rw [Dispatcher.run_concat, Dispatcher.attemptsOf_concat, resumed]
    refine ⟨fun attempt inLog => ?_, still⟩
    rcases List.mem_append.mp inLog with old | new
    · exact quiet attempt old
    · exact alsoQuiet attempt new

/-- **No notification is sent again, a row that is not pending never changes, and no delivery is
attempted more than eight times**, in every run in which no update of a delivery is lost: one marks the row
of a message that was sent, or it is not put back, and one counts an attempt that failed. -/
theorem attempts_settle (table : CaseTable) (unused : Unused start) (keeps : KeepsIn table start steps) :
    ((Dispatcher.attemptsOf table ⟨start, []⟩ steps).Pairwise fun earlier later =>
        earlier.succeeded = true → later.delivery ≠ earlier.delivery) ∧
      (∀ earlier later, steps = earlier ++ later →
        ∀ delivery ∈ (Dispatcher.run table ⟨start, []⟩ earlier).store.deliveries, delivery.state ≠ .pending →
          (∀ attempt ∈ (Dispatcher.run table ⟨start, []⟩ earlier).attemptsOf table later,
            attempt.delivery ≠ delivery.key) ∧
            delivery ∈ (Dispatcher.run table ⟨start, []⟩ steps).store.deliveries) ∧
      ∀ key, ((Dispatcher.attemptsOf table ⟨start, []⟩ steps).filter fun attempt => attempt.delivery = key).length ≤
        MAX_ATTEMPTS := by
  have tallied := tallied_run unused keeps
  refine ⟨tallied.once, fun earlier later split delivery member done_ => ?_, fun key => ?_⟩
  · cases split
    exact settled_run unused earlier keeps member done_
  · by_cases held : (Dispatcher.run table ⟨start, []⟩ steps).store.deliveries.Holds key
    · obtain ⟨delivery, member, rfl⟩ := KeyedTable.holds_iff.mp held
      exact (tallied.counted delivery member).trans (tallied.few delivery member)
    · have none_ :
          ((Dispatcher.attemptsOf table ⟨start, []⟩ steps).filter fun attempt => attempt.delivery = key) = [] := by
        refine List.filter_eq_nil_iff.mpr fun attempt member same => held ?_
        exact of_decide_eq_true same ▸ tallied.held attempt member
      simp [none_]

end Runs

/-! ## A sample -/

/-- A sender that is down. -/
def refusing : NotificationChannel → RecordEventInput → Except Thrown Unit :=
  fun _ _ => .error (.error (js "fetch failed"))

/-- A failure is reported at the second attempt, and the process ends when it is marked. -/
def retrySteps : List DispatchStep :=
  [.record (burst 1) [], .drain 50, .deliver refusing [], .wait 2000, .drain 50,
    .deliver delivered [none, none, some .killed], .restart, .wait 3600000, .drain 50, .deliver delivered []]

theorem retry_settles :
    Dispatcher.attemptsOf basicTable ⟨alertStore, []⟩ retrySteps = [⟨(0, js "c1"), false⟩, ⟨(0, js "c1"), true⟩] ∧
      (Dispatcher.attemptsOf basicTable ⟨alertStore, []⟩ retrySteps).Pairwise fun earlier later =>
        earlier.succeeded = true → later.delivery ≠ earlier.delivery := by
  have each : ∀ i, ∀ there : i < retrySteps.length,
      (Dispatcher.run basicTable ⟨alertStore, []⟩ (retrySteps.take i)).Keeps retrySteps[i] := by
    decide +kernel
  have keeps : KeepsIn basicTable alertStore retrySteps := atEach_of_getElem each
  exact ⟨by decide +kernel, (attempts_settle basicTable alertStore_unused keeps).1⟩

/-- A message is sent and marked, and the update of its channel goes wrong. -/
def markedSteps (fault : Fault) : List DispatchStep :=
  [.record (burst 1) [], .drain 50, .deliver delivered [none, none, some fault]]

/-- Nine attempts, and none of them is counted. -/
def uncountedSteps : List DispatchStep :=
  .record (burst 1) [] :: (List.replicate 9 [DispatchStep.drain 50, .deliver refusing [none, some .refused]]).flatten

/-- **Counterexample.** A row that is marked sent is put back when its channel is not updated, and its
message is sent again. A delivery whose attempts are not counted is attempted nine times. -/
theorem lost_sent_again :
    (Dispatcher.run basicTable ⟨alertStore, []⟩ (markedSteps .killed)).store.deliveries.rows.map (·.state) = [.sent] ∧
    (Dispatcher.run basicTable ⟨alertStore, []⟩ (markedSteps .refused)).store.deliveries.rows.map (·.state) =
      [.pending] ∧
    Dispatcher.attemptsOf basicTable ⟨alertStore, []⟩
        (markedSteps .refused ++ [.wait 2000, .drain 50, .deliver delivered []]) =
      [⟨(0, js "c1"), true⟩, ⟨(0, js "c1"), true⟩] ∧
    (Dispatcher.attemptsOf basicTable ⟨alertStore, []⟩ uncountedSteps).length = 9 := by
  refine ⟨?_, ?_, ?_, ?_⟩
  · decide +kernel
  · decide +kernel
  · decide +kernel
  · decide +kernel

end RemoteSqlAgent
