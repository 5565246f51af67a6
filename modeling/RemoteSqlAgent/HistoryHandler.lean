import RemoteSqlAgent.HistoryConfluence
import RemoteSqlAgent.RunAlerts

/-! The handler of a batch of history: it stores the batch and turns the outcomes
that were new into events. Any call of it can go wrong, and it can be killed
between any two; what it stored stays, and its events are those of rows that it
stored. -/
namespace RemoteSqlAgent
open Js CallProgram

/-! ## The handler -/

/-- What a call answers when it goes wrong. -/
def HistoryCall.failed : (call : HistoryCall) → HistoryAnswer call
  | .insertHistory _ | .raiseHighWaterMark _ _ | .selectHighWaterMark _ | .selectLatest _ | .updateLastRun _ _ =>
    .error (js "Connection terminated unexpectedly")

def NotificationCall.failed : (call : NotificationCall) → NotificationAnswer call
  | .insertEvent _ | .selectRules | .selectSent .. | .insertDelivery .. | .selectJobs .. | .selectOutcomes ..
  | .selectFailedStep .. | .selectDue _ | .send .. | .markSent .. | .channelDelivered _ | .markFailed ..
  | .channelFailed .. => .error (.error (js "Connection terminated unexpectedly"))

/-- The part of the hub that handles history, on rows whose messages are redacted.
A fault of the notifications does not fail the ingestion. -/
def AlertStore.handleHistory (table : CaseTable) (store : AlertStore) (instanceId : JsString) (rows : List HistoryRow)
    (faults : List (Option Fault)) : AlertStore :=
  let (ended, left, between) :=
    performUnder AlertStore.respondHistory HistoryCall.failed faults store (ingestHistory instanceId rows)
  match ended with
  | some (.ok result) =>
    (performUnder (AlertStore.respond fun _ _ => .ok ()) NotificationCall.failed left between
      (onRunsIngested table instanceId result.newRuns)).2.2
  | _ => between

/-! ## Ingestion -/

section Ingestion
variable {store : AlertStore} {instanceId : JsString} {rows : List HistoryRow} {values : List JobHistoryRow}

/-- Values that can all be bound. -/
theorem of_mapM_ok {Value : Type} {bound : List (Except JsString Value)} {values : List Value}
    (ok : bound.mapM (id : Except JsString Value → _) = .ok values) : bound = values.map Except.ok := by
  induction bound generalizing values with
  | nil =>
    cases ok
    rfl
  | cons first rest ih =>
    rw [List.mapM_cons] at ok
    cases first with
    | error message => cases ok
    | ok value =>
      cases later : rest.mapM (id : Except JsString Value → _) with
      | error message =>
        rw [later] at ok
        cases ok
      | ok others =>
        rw [later] at ok
        cases ok
        rw [ih later]
        rfl

/-- A batch brings nothing, cannot be bound, or is stored. -/
theorem ingestHistory_cases (instanceId : JsString) (rows : List HistoryRow) :
    ingestHistory instanceId rows = unchangedResult instanceId ∨
      (∃ message, ingestHistory instanceId rows = .throw message) ∨
      ingestHistory instanceId rows = storeHistory instanceId (historyValues instanceId rows) := by
  unfold ingestHistory
  split
  · exact .inl rfl
  · split
    · exact .inl rfl
    · rename_i bound isBound
      split
      · rename_i message _
        exact .inr (.inl ⟨message, rfl⟩)
      · rename_i values ok
        refine .inr (.inr (congrArg (storeHistory instanceId) ?_))
        rw [historyValues, ← List.filterMap_filterMap, of_mapM_ok ok, List.filterMap_map]
        exact (List.filterMap_some (l := values)).symm

/-- Every value can be bound. -/
def Accepted (values : List JobHistoryRow) : Prop :=
  values.all (fun value => columnTakes value.instanceId && columnTakes value.jobUuid) = true

instance (values : List JobHistoryRow) : Decidable (Accepted values) := inferInstanceAs (Decidable (_ = true))

/-- What an ingestion leaves: more rows of the batch, or none. -/
structure Stored (store : AlertStore) (values : List JobHistoryRow) (after : AlertStore) : Prop where
  settled : after = { store with mirror := after.mirror }
  tables : after.mirror.tables = store.mirror.tables
  history : after.mirror.jobHistory = store.mirror.jobHistory ∨
    Accepted values ∧ after.mirror.jobHistory = (store.mirror.jobHistory.insertNew values).1

theorem Stored.rest {after : AlertStore} (stored : Stored store values after) :
    after.rules = store.rules ∧ after.channels = store.channels ∧ after.events = store.events ∧
      after.deliveries = store.deliveries := by
  rw [stored.settled]
  exact ⟨rfl, rfl, rfl, rfl⟩

/-- The call is not the insertion. -/
def NoInsertion : HistoryCall → Prop
  | .insertHistory _ => False
  | _ => True

theorem follows_respond {call : HistoryCall} (follows : NoInsertion call) (now : AlertStore) :
    now.respondHistory call = ((call.respond now.mirror).1, { now with mirror := (call.respond now.mirror).2 }) := by
  cases call with
  | insertHistory => exact follows.elim
  | raiseHighWaterMark | selectHighWaterMark | selectLatest | updateLastRun => rfl

theorem follows_keeps {call : HistoryCall} (follows : NoInsertion call) (now : MirrorStore) :
    (call.respond now).2.jobHistory = now.jobHistory ∧ (call.respond now).2.tables = now.tables := by
  cases call with
  | insertHistory => exact follows.elim
  | raiseHighWaterMark | selectHighWaterMark | selectLatest => exact ⟨rfl, rfl⟩
  | updateLastRun job latest =>
    exact ⟨MirrorStore.setLastRun_jobHistory job latest, MirrorStore.setLastRun_tables job latest⟩

/-- Without the insertion a program does to the mirror what it does without the
notifications. -/
theorem perform_follows {α : Type} {program : HistoryProgram α} (only : Within NoInsertion program) (now : AlertStore) :
    perform AlertStore.respondHistory now program = ((perform HistoryCall.respond now.mirror program).1,
      { now with mirror := (perform HistoryCall.respond now.mirror program).2 }) := by
  induction only generalizing now with
  | done value => rfl
  | throw error => rfl
  | @call call next permitted _ ih =>
    rw [perform_call, perform_call, follows_respond permitted, ih]

theorem within_orThrow {Call α : Type} {Answer : Call → Type} {allowed : Call → Prop} (answer : Except JsString α) :
    Within allowed (orThrow answer : CallProgram Call Answer JsString α) := by
  cases answer with
  | ok value => exact .done value
  | error message => exact .throw message

theorem within_unchangedResult (instanceId : JsString) : Within NoInsertion (unchangedResult instanceId) :=
  .call trivial fun selected : Except JsString Int => .bind (within_orThrow selected) fun _ => .done _

theorem within_refreshLastRun (job : JobKey) : Within NoInsertion (refreshLastRun job) := by
  refine .call trivial fun selected : Except JsString (Option LastRun) =>
    .bind (within_orThrow selected) fun found => ?_
  cases found with
  | none => exact .done _
  | some latest => exact .call trivial fun updated : Except JsString Unit => within_orThrow updated

/-- What comes after the insertion. -/
def afterInsertion (instanceId : JsString) (values inserted : List JobHistoryRow) :
    HistoryProgram HistoryIngestResult :=
  .call (.raiseHighWaterMark instanceId (batchMax values)) fun raised : Except JsString Unit => do
    let _ ← orThrow raised
    refreshLastRunSummary instanceId (values.map (·.jobUuid)).eraseDups
    return {
      inserted := inserted.length
      highWaterMark := batchMax values
      newRuns := (inserted.filter fun row => row.stepId = 0).map (·.run) }

theorem within_afterInsertion (instanceId : JsString) (values inserted : List JobHistoryRow) :
    Within NoInsertion (afterInsertion instanceId values inserted) :=
  .call trivial fun raised : Except JsString Unit => .bind (within_orThrow raised) fun _ =>
    .bind (.forM fun _ _ => within_refreshLastRun _) fun _ => .done _

theorem gives_afterInsertion (inserted : List JobHistoryRow) :
    Gives (fun result => result.newRuns = (inserted.filter fun row => row.stepId = 0).map (·.run))
      (afterInsertion instanceId values inserted) :=
  .call fun _ => .bind fun _ => .bind fun _ => .done rfl

/-- Neither the history nor the jobs changed, nor anything outside the mirror. -/
structure Stays (before after : AlertStore) : Prop where
  settled : after = { before with mirror := after.mirror }
  tables : after.mirror.tables = before.mirror.tables
  history : after.mirror.jobHistory = before.mirror.jobHistory

theorem stays_performUnder {α : Type} {program : HistoryProgram α} (only : Within NoInsertion program)
    (faults : List (Option Fault)) (now : AlertStore) :
    Stays now (performUnder AlertStore.respondHistory HistoryCall.failed faults now program).2.2 := by
  refine performUnder_keeps only (fun state call follows stays => ?_) ⟨rfl, rfl, rfl⟩
  obtain ⟨history, tables⟩ := follows_keeps follows state.mirror
  rw [follows_respond follows]
  refine ⟨?_, tables.trans stays.tables, history.trans stays.history⟩
  rw [stays.settled]

/-- What the insertion leaves. -/
theorem respond_insertHistory (store : AlertStore) (values : List JobHistoryRow) :
    (Accepted values ∧ store.respondHistory (.insertHistory values) =
        (.ok (store.mirror.jobHistory.insertNew values).2,
          { store with mirror := store.mirror.insertHistory values })) ∨
      ∃ message, store.respondHistory (.insertHistory values) = (.error message, store) := by
  unfold AlertStore.respondHistory
  by_cases accepted : Accepted values
  · exact .inl ⟨accepted, if_pos accepted⟩
  · exact .inr ⟨_, if_neg accepted⟩

/-- The ways a batch is stored: nothing is, or it is and no more is known, or the
rest of the ingestion goes on from there. -/
theorem performUnder_storeHistory (store : AlertStore) (values : List JobHistoryRow) (faults : List (Option Fault)) :
    let outcome :=
      performUnder AlertStore.respondHistory HistoryCall.failed faults store (storeHistory instanceId values)
    ((∀ result, outcome.1 ≠ some (.ok result)) ∧ outcome.2.2 = store) ∨
      (Accepted values ∧ (∀ result, outcome.1 ≠ some (.ok result)) ∧
        outcome.2.2 = { store with mirror := store.mirror.insertHistory values }) ∨
      (Accepted values ∧ outcome = performUnder AlertStore.respondHistory HistoryCall.failed faults.tail
        { store with mirror := store.mirror.insertHistory values }
        (afterInsertion instanceId values (store.mirror.jobHistory.insertNew values).2)) := by
  intro outcome
  have thrown : ∀ (left : List (Option Fault)) (now : AlertStore) (message : JsString),
      performUnder AlertStore.respondHistory HistoryCall.failed left now
        (orThrow (.error message) >>= afterInsertion instanceId values) = (some (.error message), left, now) :=
    fun _ _ _ => rfl
  cases head : faults.head?.join with
  | none =>
    have whole : outcome = performUnder AlertStore.respondHistory HistoryCall.failed faults.tail
        (store.respondHistory (.insertHistory values)).2
        (orThrow (store.respondHistory (.insertHistory values)).1 >>= afterInsertion instanceId values) :=
      performUnder_done head
    rcases respond_insertHistory store values with ⟨accepted, answer⟩ | ⟨message, answer⟩
    · rw [answer] at whole
      exact .inr (.inr ⟨accepted, whole⟩)
    · rw [answer] at whole
      rw [whole]
      exact .inl ⟨fun _ same => (by cases same), rfl⟩
  | some fault =>
    cases fault with
    | killed =>
      have whole : outcome = (none, faults.tail, store) := performUnder_killed head
      rw [whole]
      exact .inl ⟨fun _ same => (by cases same), rfl⟩
    | refused =>
      have whole : outcome = _ := performUnder_refused head
      rw [whole]
      exact .inl ⟨fun _ same => (by cases same), rfl⟩
    | unheard =>
      have whole : outcome = _ := performUnder_unheard head
      rw [whole]
      change ((∀ result, some (Except.error _) ≠ some (.ok result)) ∧
        (store.respondHistory (.insertHistory values)).2 = store) ∨ _
      rcases respond_insertHistory store values with ⟨accepted, answer⟩ | ⟨message, answer⟩
      · exact .inr (.inl ⟨accepted, fun _ same => (by cases same), congrArg Prod.snd answer⟩)
      · exact .inl ⟨fun _ same => (by cases same), congrArg Prod.snd answer⟩

/-- Whatever goes wrong in an ingestion, the rows of the batch are stored together
or not at all. Those it reports as new are the ones that were. -/
theorem performUnder_ingestHistory (store : AlertStore) (instanceId : JsString) (rows : List HistoryRow)
    (faults : List (Option Fault)) :
    let outcome :=
      performUnder AlertStore.respondHistory HistoryCall.failed faults store (ingestHistory instanceId rows)
    Stored store (historyValues instanceId rows) outcome.2.2 ∧
      ∀ result, outcome.1 = some (.ok result) →
        (result.newRuns = [] ∧ outcome.2.2.mirror.jobHistory = store.mirror.jobHistory) ∨
        (Accepted (historyValues instanceId rows) ∧
          outcome.2.2.mirror.jobHistory = (store.mirror.jobHistory.insertNew (historyValues instanceId rows)).1 ∧
          result.newRuns = ((store.mirror.jobHistory.insertNew (historyValues instanceId rows)).2.filter
            fun row => row.stepId = 0).map (·.run)) := by
  have unchanged : ∀ after, Stays store after → Stored store (historyValues instanceId rows) after :=
    fun after stays => ⟨stays.settled, stays.tables, .inl stays.history⟩
  rcases ingestHistory_cases instanceId rows with same | ⟨message, same⟩ | same
  · have stays := stays_performUnder (within_unchangedResult instanceId) faults store
    have gives : Gives (fun result => result.newRuns = []) (unchangedResult instanceId) :=
      .call fun _ => .bind fun _ => .done rfl
    rw [same]
    refine ⟨unchanged _ stays, fun result ok => .inl ⟨?_, stays.history⟩⟩
    have told := gives_of_performUnder gives ok
    exact told
  · rw [same]
    exact ⟨unchanged _ ⟨rfl, rfl, rfl⟩, fun result ok => (by cases ok)⟩
  · rw [same]
    rcases performUnder_storeHistory store (historyValues instanceId rows) faults with
      ⟨none_, kept⟩ | ⟨accepted, none_, kept⟩ | ⟨accepted, onward⟩
    · refine ⟨?_, fun result ok => absurd ok (none_ result)⟩
      rw [kept]
      exact unchanged _ ⟨rfl, rfl, rfl⟩
    · refine ⟨?_, fun result ok => absurd ok (none_ result)⟩
      rw [kept]
      exact ⟨rfl, rfl, .inr ⟨accepted, rfl⟩⟩
    · rw [onward]
      have stays := stays_performUnder (within_afterInsertion instanceId (historyValues instanceId rows)
        (store.mirror.jobHistory.insertNew (historyValues instanceId rows)).2)
        faults.tail { store with mirror := store.mirror.insertHistory (historyValues instanceId rows) }
      refine ⟨⟨?_, stays.tables, .inr ⟨accepted, stays.history⟩⟩, fun result ok => .inr ⟨accepted, stays.history, ?_⟩⟩
      · rw [stays.settled]
      · have told := gives_of_performUnder (gives_afterInsertion _) ok
        exact told

/-- If nothing goes wrong, a batch that leaves rows is ingested to the end. -/
theorem quiet_ingestHistory (store : AlertStore) (instanceId : JsString) (rows : List HistoryRow)
    {faults : List (Option Fault)} (quiet : Faultless faults) :
    let outcome :=
      performUnder AlertStore.respondHistory HistoryCall.failed faults store (ingestHistory instanceId rows)
    outcome.2.2.mirror.jobHistory = store.mirror.jobHistory ∨
      (Faultless outcome.2.1 ∧ ∃ result, outcome.1 = some (.ok result)) := by
  obtain ⟨left, still, whole⟩ :=
    performUnder_quiet AlertStore.respondHistory HistoryCall.failed store (ingestHistory instanceId rows) quiet
  rw [whole]
  rcases ingestHistory_cases instanceId rows with same | ⟨message, same⟩ | same
  · rw [same, perform_follows (within_unchangedResult instanceId)]
    exact .inl rfl
  · rw [same]
    exact .inl rfl
  · have first : perform AlertStore.respondHistory store (ingestHistory instanceId rows) =
        perform AlertStore.respondHistory (store.respondHistory (.insertHistory (historyValues instanceId rows))).2
          (orThrow (store.respondHistory (.insertHistory (historyValues instanceId rows))).1 >>=
            afterInsertion instanceId (historyValues instanceId rows)) := by
      rw [same]
      rfl
    rw [first]
    rcases respond_insertHistory store (historyValues instanceId rows) with ⟨accepted, answer⟩ | ⟨message, answer⟩
    · rw [answer]
      obtain ⟨result, plain⟩ : ∃ result, (perform HistoryCall.respond store.mirror
          (storeHistory instanceId (historyValues instanceId rows))).1 = .ok result :=
        ⟨_, congrArg Prod.fst (perform_storeHistory _ _ _)⟩
      refine .inr ⟨still, result, congrArg some ?_⟩
      change (perform AlertStore.respondHistory _ (afterInsertion instanceId (historyValues instanceId rows)
        (store.mirror.jobHistory.insertNew (historyValues instanceId rows)).2)).1 = _
      rw [perform_follows (within_afterInsertion _ _ _)]
      exact plain
    · rw [answer]
      exact .inl rfl

end Ingestion

/-! ## The whole handler -/

section Handling
variable {table : CaseTable} {store : AlertStore} {instanceId : JsString} {rows : List HistoryRow}

/-- What the handler leaves, whatever goes wrong: rows of the batch, and events of
outcomes among them. -/
structure Handled (table : CaseTable) (store : AlertStore) (instanceId : JsString) (rows : List HistoryRow)
    (after : AlertStore) : Prop where
  rules : after.rules = store.rules
  channels : after.channels = store.channels
  events : store.events.rows <+: after.events.rows
  deliveries : store.deliveries.rows <+: after.deliveries.rows
  history : after.mirror.jobHistory = store.mirror.jobHistory ∨
    Accepted (historyValues instanceId rows) ∧
      after.mirror.jobHistory = (store.mirror.jobHistory.insertNew (historyValues instanceId rows)).1
  recorded : ∀ event ∈ after.events, event ∈ store.events ∨
    ∃ row ∈ after.mirror.jobHistory, row.instanceId = instanceId ∧ row.stepId = 0 ∧ OfRun instanceId row.run event.input

/-- The ended ingestion goes on with the runs it reports. -/
theorem handleHistory_reported {faults left : List (Option Fault)} {between : AlertStore} {result : HistoryIngestResult}
    (ended : performUnder AlertStore.respondHistory HistoryCall.failed faults store (ingestHistory instanceId rows) =
      (some (.ok result), left, between)) :
    store.handleHistory table instanceId rows faults =
      (performUnder (AlertStore.respond fun _ _ => .ok ()) NotificationCall.failed left between
        (onRunsIngested table instanceId result.newRuns)).2.2 := by
  rw [AlertStore.handleHistory, ended]

theorem handleHistory_other {faults left : List (Option Fault)} {between : AlertStore}
    {outcome : Option (Except JsString HistoryIngestResult)}
    (ended : performUnder AlertStore.respondHistory HistoryCall.failed faults store (ingestHistory instanceId rows) =
      (outcome, left, between)) (other : ∀ result, outcome ≠ some (.ok result)) :
    store.handleHistory table instanceId rows faults = between := by
  rw [AlertStore.handleHistory, ended]
  cases outcome with
  | none => rfl
  | some outcome =>
    cases outcome with
    | error message => rfl
    | ok result => exact absurd rfl (other result)

theorem handled_handleHistory (table : CaseTable) (store : AlertStore) (instanceId : JsString) (rows : List HistoryRow)
    (faults : List (Option Fault)) :
    Handled table store instanceId rows (store.handleHistory table instanceId rows faults) := by
  have spec := performUnder_ingestHistory store instanceId rows faults
  cases ended : performUnder AlertStore.respondHistory HistoryCall.failed faults store
    (ingestHistory instanceId rows) with
  | mk outcome later =>
    obtain ⟨left, between⟩ := later
    rw [ended] at spec
    obtain ⟨stored, reports⟩ := spec
    obtain ⟨rules, channels, events, deliveries⟩ := stored.rest
    have ingested : Handled table store instanceId rows between :=
      ⟨rules, channels, events ▸ List.prefix_rfl, deliveries ▸ List.prefix_rfl, stored.history,
        fun event member => .inl (events ▸ member)⟩
    by_cases reported : ∃ result, outcome = some (.ok result)
    · obtain ⟨result, rfl⟩ := reported
      rw [handleHistory_reported ended]
      have only : Within (Asks fun input => ∃ run ∈ result.newRuns, OfRun instanceId run input)
          (onRunsIngested table instanceId result.newRuns) :=
        within_onRunsIngested fun run member input ofRun => ⟨run, member, ofRun⟩
      have records := recordsOf_performUnder only (fun _ _ => .ok ()) NotificationCall.failed left between
      have mirror := records.mirror
      refine ⟨records.rules.trans rules, ?_, ingested.events.trans records.events,
        ingested.deliveries.trans records.deliveries, mirror ▸ stored.history, fun event member => ?_⟩
      · rw [records.settled]
        exact channels
      · rcases records.asked event member with before | ⟨run, isNew, ofRun⟩
        · exact .inl (events ▸ before)
        · rw [mirror]
          rcases reports result rfl with ⟨none_, -⟩ | ⟨-, history, newRuns⟩
          · rw [none_] at isNew
            cases isNew
          · rw [newRuns] at isNew
            obtain ⟨row, inside, rfl⟩ := List.mem_map.mp isNew
            obtain ⟨inserted, isOutcome⟩ := List.mem_filter.mp inside
            have place := instanceId_of_historyValue (KeyedTable.mem_of_inserted inserted).1
            refine .inr ⟨row, ?_, place, of_decide_eq_true isOutcome, ofRun⟩
            rw [history]
            exact KeyedTable.mem_insertNew.mpr (.inr inserted)
    · rw [handleHistory_other ended fun result same => reported ⟨result, same⟩]
      exact ingested

/-- Notifications do not touch the mirror. -/
theorem handleHistory_mirror (faults : List (Option Fault)) :
    (store.handleHistory table instanceId rows faults).mirror = (performUnder AlertStore.respondHistory
      HistoryCall.failed faults store (ingestHistory instanceId rows)).2.2.mirror := by
  cases ended : performUnder AlertStore.respondHistory HistoryCall.failed faults store
    (ingestHistory instanceId rows) with
  | mk outcome later =>
    obtain ⟨left, between⟩ := later
    by_cases reported : ∃ result, outcome = some (.ok result)
    · obtain ⟨result, rfl⟩ := reported
      have only : Within (Asks fun _ => True) (onRunsIngested table instanceId result.newRuns) :=
        within_onRunsIngested fun _ _ _ _ => trivial
      rw [handleHistory_reported ended]
      exact (recordsOf_performUnder only _ _ _ _).mirror
    · rw [handleHistory_other ended fun result isOk => reported ⟨result, isOk⟩]

/-- The rows were not inserted, and no more was done. -/
def Undone (faults : List (Option Fault)) : Prop := faults.head?.join = some .refused ∨ faults.head?.join = some .killed

/-- If the rows are not inserted, no row is stored. -/
theorem handleHistory_undone {faults : List (Option Fault)} (undone : Undone faults) :
    (store.handleHistory table instanceId rows faults).mirror.jobHistory = store.mirror.jobHistory := by
  rw [handleHistory_mirror]
  rcases ingestHistory_cases instanceId rows with same | ⟨message, same⟩ | same
  · rw [same]
    exact (stays_performUnder (within_unchangedResult instanceId) faults store).history
  · rw [same]
    rfl
  · rw [same]
    rcases undone with wrong | wrong
    · have whole : performUnder AlertStore.respondHistory HistoryCall.failed faults store
          (storeHistory instanceId (historyValues instanceId rows)) = _ := performUnder_refused wrong
      rw [whole]
      rfl
    · have whole : performUnder AlertStore.respondHistory HistoryCall.failed faults store
          (storeHistory instanceId (historyValues instanceId rows)) = _ := performUnder_killed wrong
      rw [whole]

/-- The runs a batch reports as new. -/
def newRuns (store : AlertStore) (instanceId : JsString) (rows : List HistoryRow) : List IngestedRun :=
  ((store.mirror.jobHistory.insertNew (historyValues instanceId rows)).2.filter fun row => row.stepId = 0).map (·.run)

/-- If nothing goes wrong, a batch that leaves rows has the events of its new runs
recorded. -/
theorem handleHistory_quiet {faults : List (Option Fault)} (quiet : Faultless faults)
    (changed : (store.handleHistory table instanceId rows faults).mirror.jobHistory ≠ store.mirror.jobHistory) :
    ∃ between, Stored store (historyValues instanceId rows) between ∧ Accepted (historyValues instanceId rows) ∧
      between.mirror.jobHistory = (store.mirror.jobHistory.insertNew (historyValues instanceId rows)).1 ∧
      store.handleHistory table instanceId rows faults = (between.recordAll table (fun _ _ => .ok ())
        ((outcomesOf (newRuns store instanceId rows)).flatMap (between.runEvents instanceId))).2 := by
  have spec := performUnder_ingestHistory store instanceId rows faults
  have ends := quiet_ingestHistory store instanceId rows quiet
  cases ended : performUnder AlertStore.respondHistory HistoryCall.failed faults store
    (ingestHistory instanceId rows) with
  | mk outcome later =>
    obtain ⟨left, between⟩ := later
    rw [ended] at spec ends
    obtain ⟨stored, reports⟩ := spec
    have kept : between.mirror.jobHistory ≠ store.mirror.jobHistory := by
      rw [handleHistory_mirror, ended] at changed
      exact changed
    rcases ends with same | ⟨still, result, rfl⟩
    · exact absurd same kept
    · rcases reports result rfl with ⟨-, same⟩ | ⟨accepted, history, reported⟩
      · exact absurd same kept
      · obtain ⟨rest, -, whole⟩ :=
          performUnder_quiet (AlertStore.respond fun _ _ => .ok ()) NotificationCall.failed between
          (onRunsIngested table instanceId result.newRuns) still
        refine ⟨between, stored, accepted, history, ?_⟩
        rw [handleHistory_reported ended, whole, perform_onRunsIngested, reported]
        rfl

/-- A store whose history took a batch. -/
def AlertStore.ingested (store : AlertStore) (instanceId : JsString) (rows : List HistoryRow) : AlertStore :=
  { store with
    mirror := if historyValues instanceId rows = [] then store.mirror
      else store.mirror.ingest instanceId (historyValues instanceId rows) }

theorem ingested_jobHistory (store : AlertStore) (instanceId : JsString) (rows : List HistoryRow) :
    (store.ingested instanceId rows).mirror.jobHistory =
      (store.mirror.jobHistory.insertNew (historyValues instanceId rows)).1 := by
  unfold AlertStore.ingested
  split
  · rename_i bare
    rw [bare]
    rfl
  · exact MirrorStore.ingest_jobHistory instanceId _

theorem ingested_tables (store : AlertStore) (instanceId : JsString) (rows : List HistoryRow) :
    (store.ingested instanceId rows).mirror.tables = store.mirror.tables := by
  unfold AlertStore.ingested
  split
  · rfl
  · exact MirrorStore.ingest_tables instanceId _

theorem perform_ingested (store : AlertStore) (dated : WellDated rows)
    (accepted : Accepted (historyValues instanceId rows)) :
    ∃ result, perform AlertStore.respondHistory store (ingestHistory instanceId rows) =
      (.ok result, store.ingested instanceId rows) ∧
      result.newRuns = newRuns store instanceId rows := by
  rw [ingestHistory_of_dated dated, newRuns, AlertStore.ingested]
  by_cases bare : historyValues instanceId rows = []
  · rw [if_pos bare, if_pos bare, bare, perform_follows (within_unchangedResult instanceId)]
    exact ⟨_, rfl, rfl⟩
  · rw [if_neg bare, if_neg bare]
    have answer : store.respondHistory (.insertHistory (historyValues instanceId rows)) =
        (.ok (store.mirror.jobHistory.insertNew (historyValues instanceId rows)).2,
          { store with mirror := store.mirror.insertHistory (historyValues instanceId rows) }) := if_pos accepted
    have first : perform AlertStore.respondHistory store (storeHistory instanceId (historyValues instanceId rows)) =
        perform AlertStore.respondHistory (store.respondHistory (.insertHistory (historyValues instanceId rows))).2
          (orThrow (store.respondHistory (.insertHistory (historyValues instanceId rows))).1 >>=
            afterInsertion instanceId (historyValues instanceId rows)) := rfl
    have plain := perform_storeHistory store.mirror instanceId (historyValues instanceId rows)
    change perform HistoryCall.respond (store.mirror.insertHistory (historyValues instanceId rows))
      (afterInsertion instanceId (historyValues instanceId rows)
        (store.mirror.jobHistory.insertNew (historyValues instanceId rows)).2) = _ at plain
    have later := perform_follows (within_afterInsertion instanceId (historyValues instanceId rows)
      (store.mirror.jobHistory.insertNew (historyValues instanceId rows)).2)
      { store with mirror := store.mirror.insertHistory (historyValues instanceId rows) }
    rw [plain] at later
    rw [first, answer]
    exact ⟨_, later, rfl⟩

/-- If nothing goes wrong, a batch that is dated is stored, and the events of its new
runs are recorded. -/
theorem handleHistory_dated (dated : WellDated rows) (accepted : Accepted (historyValues instanceId rows)) :
    store.handleHistory table instanceId rows [] = ((store.ingested instanceId rows).recordAll table (fun _ _ => .ok ())
      ((outcomesOf (newRuns store instanceId rows)).flatMap
        ((store.ingested instanceId rows).runEvents instanceId))).2 := by
  have quiet : Faultless [] := fun _ member => absurd member List.not_mem_nil
  obtain ⟨result, performed, reported⟩ := perform_ingested store dated accepted
  obtain ⟨left, still, ended⟩ :=
    performUnder_quiet AlertStore.respondHistory HistoryCall.failed store (ingestHistory instanceId rows) quiet
  obtain ⟨rest, -, whole⟩ := performUnder_quiet (AlertStore.respond fun _ _ => .ok ()) NotificationCall.failed
    (store.ingested instanceId rows) (onRunsIngested table instanceId result.newRuns) still
  rw [performed] at ended
  rw [handleHistory_reported ended, whole, perform_onRunsIngested, reported]

end Handling

end RemoteSqlAgent
