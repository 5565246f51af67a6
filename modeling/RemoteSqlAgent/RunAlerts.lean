import RemoteSqlAgent.AlertStore

/-! What the runs of a batch leave in the database of notifications. Every run of
a job that is there gets its events, in the order of the batch, up to one with a
channel that is not there. The texts of occurrences tell runs apart. -/
namespace RemoteSqlAgent
open Js CallProgram

/-! ## Occurrences -/

theorem decimal_injective : Function.Injective decimal := by
  intro m n same
  have ends : Delimited [] := by simp [Delimited]
  have texts : stringify (.number m) ++ [] = stringify (.number n) ++ [] := by simpa only [stringify, List.append_nil]
  exact JsonValue.number.inj (stringify_append_inj (.number m) (.number n) ends ends texts).1

/-- There is no colon in the text. -/
def ColonFree (text : JsString) : Prop := (0x3A : CodeUnit) ∉ text

instance (text : JsString) : Decidable (ColonFree text) := inferInstanceAs (Decidable (_ ∉ _))

/-- What is before the first colon, and what is after it. -/
theorem colon_inj {first other rest tail : JsString} (free : ColonFree first) (also : ColonFree other)
    (same : first ++ js ":" ++ rest = other ++ js ":" ++ tail) : first = other ∧ rest = tail := by
  have stops : ∀ {text after : JsString}, ColonFree text →
      (text ++ js ":" ++ after).takeWhile (· ≠ (0x3A : CodeUnit)) = text := by
    intro text after none
    have inside : ∀ unit ∈ text, decide (unit ≠ (0x3A : CodeUnit)) = true := fun unit member =>
      decide_eq_true fun colon => none (Eq.subst colon member)
    rw [List.append_assoc, List.takeWhile_append_of_pos inside]
    exact List.append_right_eq_self.mpr rfl
  have texts : first = other := by
    rw [← stops free, same, stops also]
  subst texts
  rw [List.append_assoc, List.append_assoc] at same
  exact ⟨rfl, List.append_cancel_left (List.append_cancel_left same)⟩

theorem colonFree_text (kind : NotificationEventKind) : ColonFree kind.text := by
  cases kind <;> decide

theorem NotificationEventKind.text_injective : Function.Injective NotificationEventKind.text := by
  intro a b same
  cases a <;> cases b <;> first | rfl | exact absurd same (by decide)

theorem colonFree_of_columnTakes {text : JsString} (taken : columnTakes text = true) : ColonFree text := by
  intro member
  have colon := List.all_eq_true.mp taken _ member
  exact absurd colon (by decide)

theorem occurrence_eq (kind : NotificationEventKind) (instanceId : JsString) (run : IngestedRun) :
    occurrence kind instanceId run =
      kind.text ++ js ":" ++ (instanceId ++ js ":" ++ (run.jobUuid ++ js ":" ++ decimal run.sqlInstanceId)) := by
  simp only [occurrence, List.append_assoc]

/-- The kind of an occurrence is in its text. -/
theorem kind_of_occurrence {kind other : NotificationEventKind} {instanceId rest : JsString} {run : IngestedRun}
    (same : occurrence kind instanceId run = other.text ++ js ":" ++ rest) : kind = other := by
  rw [occurrence_eq] at same
  exact NotificationEventKind.text_injective (colon_inj (colonFree_text kind) (colonFree_text other) same).1

/-- An occurrence names the kind, the instance, the job and the row. -/
theorem occurrence_inj {kind other : NotificationEventKind} {instanceId another : JsString} {run run' : IngestedRun}
    (free : ColonFree instanceId) (also : ColonFree another) (uuid : ColonFree run.jobUuid)
    (uuid' : ColonFree run'.jobUuid) (same : occurrence kind instanceId run = occurrence other another run') :
    kind = other ∧ instanceId = another ∧ run.jobUuid = run'.jobUuid ∧ run.sqlInstanceId = run'.sqlInstanceId := by
  rw [occurrence_eq, occurrence_eq] at same
  obtain ⟨kinds, places⟩ := colon_inj (colonFree_text kind) (colonFree_text other) same
  obtain ⟨place, jobs⟩ := colon_inj free also places
  obtain ⟨job, ids⟩ := colon_inj uuid uuid' jobs
  exact ⟨NotificationEventKind.text_injective kinds, place, job, decimal_injective ids⟩

/-! ## One run -/

section Runs
variable {table : CaseTable} {store before after : AlertStore}
variable {sends : NotificationChannel → RecordEventInput → Except Thrown Unit}

/-- What the history that is stored tells of the runs up to one. -/
def AlertStore.failures (store : AlertStore) (job : JobKey) (sqlInstanceId : Int) : FailureContext :=
  let previous : List Int := ((store.upTo job sqlInstanceId fun row => row.stepId = 0).take 30).map (·.runStatus)
  let failedStep : Option (Option JsString) := (store.upTo job sqlInstanceId fun row =>
    row.stepId ≠ 0 ∧ row.runStatus = 0 ∧ row.sqlInstanceId > sqlInstanceId - 200).head?.map (·.stepName)
  { consecutiveFailures := (previous.takeWhile (· = 0)).length
    previousFailures := ((previous.drop 1).takeWhile (· = 0)).length
    failedStepName := failedStep.join.getD [] }

theorem perform_failureContext (job : JobKey) (sqlInstanceId : Int) :
    perform (AlertStore.respond sends) store (failureContext job sqlInstanceId) =
      (.ok (store.failures job sqlInstanceId), store) := rfl

/-- The events that are recorded of a run as the history is. -/
def AlertStore.eventsOf (store : AlertStore) (instanceId : JsString) (job : JobContext) (run : IngestedRun) :
    List RecordEventInput :=
  let history := store.failures ⟨instanceId, run.jobUuid⟩ run.sqlInstanceId
  if run.runStatus = 0 then [failedEvent instanceId job run history]
  else if history.previousFailures > 0 then
    [succeededEvent instanceId job run, recoveredEvent instanceId job run history]
  else [succeededEvent instanceId job run]

/-- Record events one after the other, until one throws. -/
def AlertStore.recordAll (table : CaseTable) (sends : NotificationChannel → RecordEventInput → Except Thrown Unit)
    (store : AlertStore) : List RecordEventInput → Except Thrown Unit × AlertStore
  | [] => (.ok ⟨⟩, store)
  | input :: rest =>
    match perform (AlertStore.respond sends) store (recordEvent table input) with
    | (.ok _, after) => after.recordAll table sends rest
    | (.error thrown, after) => (.error thrown, after)

theorem recordAll_ok {input : RecordEventInput} {rest : List RecordEventInput} {isNew : Bool}
    (recorded : perform (AlertStore.respond sends) store (recordEvent table input) = (.ok isNew, after)) :
    store.recordAll table sends (input :: rest) = after.recordAll table sends rest := by
  rw [AlertStore.recordAll, recorded]

theorem recordAll_error {input : RecordEventInput} {rest : List RecordEventInput} {thrown : Thrown}
    (refused : perform (AlertStore.respond sends) store (recordEvent table input) = (.error thrown, after)) :
    store.recordAll table sends (input :: rest) = (.error thrown, after) := by
  rw [AlertStore.recordAll, refused]

/-- The last event of a run. -/
private theorem perform_last (input : RecordEventInput) :
    perform (AlertStore.respond sends) store (do let _ ← recordEvent table input : NotificationProgram PUnit) =
      store.recordAll table sends [input] := by
  cases run : perform (AlertStore.respond sends) store (recordEvent table input) with
  | mk ended after =>
    cases ended with
    | ok isNew =>
      rw [recordAll_ok run, perform_bind run]
      rfl
    | error thrown => rw [recordAll_error run, perform_bind_error run]

theorem perform_recordRun (table : CaseTable) (sends : NotificationChannel → RecordEventInput → Except Thrown Unit)
    (store : AlertStore) (instanceId : JsString) (job : JobContext) (run : IngestedRun) :
    perform (AlertStore.respond sends) store (recordRun table instanceId job run) =
      store.recordAll table sends (store.eventsOf instanceId job run) := by
  rw [recordRun, perform_bind (perform_failureContext _ _), AlertStore.eventsOf]
  by_cases failed : run.runStatus = 0
  · rw [if_pos failed, if_pos failed]
    exact perform_last _
  · rw [if_neg failed, if_neg failed]
    by_cases recovered : (store.failures ⟨instanceId, run.jobUuid⟩ run.sqlInstanceId).previousFailures > 0
    · rw [if_pos recovered, if_pos recovered]
      cases first : perform (AlertStore.respond sends) store
        (recordEvent table (succeededEvent instanceId job run)) with
      | mk ended between =>
        cases ended with
        | ok isNew =>
          rw [recordAll_ok first, perform_bind first]
          exact perform_last _
        | error thrown => rw [recordAll_error first, perform_bind_error first]
    · rw [if_neg recovered, if_neg recovered]
      exact perform_last _

/-! ## Many events -/

theorem records_recordAll (table : CaseTable) (sends : NotificationChannel → RecordEventInput → Except Thrown Unit)
    (store : AlertStore) (inputs : List RecordEventInput) : Raises store (store.recordAll table sends inputs).2 := by
  induction inputs generalizing store with
  | nil => exact .refl store
  | cons input rest ih =>
    have first := records_recordEvent table sends store input
    cases run : perform (AlertStore.respond sends) store (recordEvent table input) with
    | mk ended after =>
      rw [run] at first
      cases ended with
      | ok isNew =>
        rw [recordAll_ok run]
        exact first.trans (ih _)
      | error thrown =>
        rw [recordAll_error run]
        exact first

theorem recordAll_append (first second : List RecordEventInput) :
    store.recordAll table sends (first ++ second) =
      match store.recordAll table sends first with
      | (.ok _, after) => after.recordAll table sends second
      | (.error thrown, after) => (.error thrown, after) := by
  induction first generalizing store with
  | nil => rfl
  | cons input rest ih =>
    cases run : perform (AlertStore.respond sends) store (recordEvent table input) with
    | mk ended after =>
      cases ended with
      | ok isNew => rw [List.cons_append, recordAll_ok run, recordAll_ok run, ih]
      | error thrown => rw [List.cons_append, recordAll_error run, recordAll_error run]

theorem Raises.targets (records : Raises before after) (input : RecordEventInput) :
    after.targets table input = before.targets table input := by
  rw [AlertStore.targets, records.rules]
  rfl

theorem Raises.wired (records : Raises before after) {input : RecordEventInput} :
    after.Wired table input ↔ before.Wired table input := by
  unfold AlertStore.Wired
  rw [records.targets]
  simp only [records.hasChannel]

/-- What is recorded was recorded before or is one of the events. -/
theorem mem_recordAll {inputs : List RecordEventInput} {event : NotificationEvent}
    (member : event ∈ (store.recordAll table sends inputs).2.events) : event ∈ store.events ∨ event.input ∈ inputs := by
  induction inputs generalizing store with
  | nil => exact .inl member
  | cons input rest ih =>
    have rows := events_recordEvent table sends store input
    have first : ∀ event ∈ (perform (AlertStore.respond sends) store (recordEvent table input)).2.events,
        event ∈ store.events ∨ event.input = input := by
      intro event there
      rw [KeyedTable.mem_iff, rows] at there
      rcases List.mem_append.mp there with before | new
      · exact .inl before
      · split at new
        · cases new
        · exact .inr (List.mem_singleton.mp new ▸ rfl)
    cases run : perform (AlertStore.respond sends) store (recordEvent table input) with
    | mk ended after =>
      rw [run] at first
      have widen :
          ∀ event, event ∈ store.events ∨ event.input = input → event ∈ store.events ∨ event.input ∈ input :: rest :=
        fun event => Or.imp_right fun same => same ▸ List.mem_cons_self
      cases ended with
      | error thrown =>
        rw [recordAll_error run] at member
        exact widen event (first event member)
      | ok isNew =>
        rw [recordAll_ok run] at member
        rcases ih member with between | later
        · exact widen event (first event between)
        · exact .inr (List.mem_cons_of_mem _ later)

/-- If every channel is there, each event that is new is recorded with its
deliveries. -/
theorem recordAll_wired (sends : NotificationChannel → RecordEventInput → Except Thrown Unit)
    {inputs : List RecordEventInput} (distinct : (inputs.map (·.dedupeKey)).Nodup)
    (wired : ∀ input ∈ inputs, store.Wired table input) :
    (store.recordAll table sends inputs).1 = .ok ⟨⟩ ∧
      ∀ input ∈ inputs, ¬ store.events.Holds input.dedupeKey →
        ∃ event ∈ (store.recordAll table sends inputs).2.events, event.input = input ∧
          ∀ channelId ∈ (store.targets table input).keys,
            (store.recordAll table sends inputs).2.deliveries.Holds (event.id, channelId) := by
  induction inputs generalizing store with
  | nil => exact ⟨rfl, fun _ member => absurd member List.not_mem_nil⟩
  | cons input rest ih =>
    obtain ⟨apart, distinct⟩ := List.nodup_cons.mp distinct
    have rows := events_recordEvent table sends store input
    have records := records_recordEvent table sends store input
    have done : ∃ isNew, (perform (AlertStore.respond sends) store (recordEvent table input)).1 = .ok isNew := by
      by_cases known : store.events.Holds input.dedupeKey
      · exact ⟨false, congrArg Prod.fst (perform_recordEvent_known known)⟩
      · exact ⟨true, (recordEvent_wired sends known (wired input List.mem_cons_self)).1⟩
    have delivered := fun fresh => (recordEvent_wired sends fresh (wired input List.mem_cons_self)).2
    obtain ⟨isNew, ok⟩ := done
    cases run : perform (AlertStore.respond sends) store (recordEvent table input) with
    | mk ended after =>
      rw [run] at rows records ok delivered
      cases ok
      change after.events.rows = _ at rows
      change Raises store after at records
      rw [recordAll_ok run]
      obtain ⟨ended, later⟩ := ih distinct fun other member =>
        records.wired.mpr (wired other (List.mem_cons_of_mem _ member))
      have onward := records_recordAll table sends after rest
      refine ⟨ended, fun other member fresh => ?_⟩
      rcases List.mem_cons.mp member with rfl | member
      · rw [if_neg fresh] at rows
        have there : ⟨store.events.rows.length, other⟩ ∈ after.events.rows := by
          rw [rows]
          exact List.mem_append_right _ (List.mem_singleton_self _)
        refine ⟨_, onward.events.subset there, rfl, fun channelId target => ?_⟩
        exact onward.holds ((delivered fresh _).mpr (.inr ⟨channelId, target, rfl⟩))
      · have fresh' : ¬ after.events.Holds other.dedupeKey := by
          intro held
          obtain ⟨event, there, same⟩ := KeyedTable.holds_iff.mp held
          rw [KeyedTable.mem_iff, rows] at there
          rcases List.mem_append.mp there with before | new
          · exact fresh (KeyedTable.holds_iff.mpr ⟨event, before, same⟩)
          · split at new
            · cases new
            · cases List.mem_singleton.mp new
              exact apart (List.mem_map.mpr ⟨other, member, same.symm⟩)
        obtain ⟨event, there, same, targets⟩ := later other member fresh'
        exact ⟨event, there, same, records.targets other ▸ targets⟩

/-! ## A batch -/

/-- The events of one run of an instance, if its job is there. -/
def AlertStore.runEvents (store : AlertStore) (instanceId : JsString) (run : IngestedRun) : List RecordEventInput :=
  (store.jobContext instanceId run.jobUuid).elim [] fun job => store.eventsOf instanceId job run

/-- The runs that have an outcome to tell of. -/
def outcomesOf (runs : List IngestedRun) : List IngestedRun := runs.filter fun run =>
  run.runStatus = 0 ∨ run.runStatus = 1

/-- Recording does not change what is recorded of a run. -/
theorem Raises.runEvents (records : Raises before after) (instanceId : JsString) (run : IngestedRun) :
    after.runEvents instanceId run = before.runEvents instanceId run := by
  rw [records.settled]
  rfl

/-- The names that are read for some runs. -/
def AlertStore.context (store : AlertStore) (instanceId : JsString) (runs : List IngestedRun) : JsMap JobContext :=
  JsMap.ofEntries (((runs.map (·.jobUuid)).eraseDups.filterMap (store.jobContext instanceId)).map
    fun job => (job.jobUuid, job))

theorem get_context {instanceId : JsString} {runs : List IngestedRun} {run : IngestedRun} (member : run ∈ runs) :
    (store.context instanceId runs).get run.jobUuid = store.jobContext instanceId run.jobUuid := by
  have own : ∀ {jobUuid : JsString} {job : JobContext}, store.jobContext instanceId jobUuid = some job →
      job.jobUuid = jobUuid := by
    intro jobUuid job found
    obtain ⟨row, -, rfl⟩ := Option.map_eq_some_iff.mp found
    rfl
  have given : ∀ entry ∈ (((runs.map (·.jobUuid)).eraseDups.filterMap (store.jobContext instanceId)).map
      fun job => (job.jobUuid, job)), store.jobContext instanceId entry.1 = some entry.2 := by
    intro entry there
    obtain ⟨job, inside, rfl⟩ := List.mem_map.mp there
    obtain ⟨jobUuid, -, found⟩ := List.mem_filterMap.mp inside
    rw [own found]
    exact found
  rw [AlertStore.context, JsMap.get_ofEntries given]
  split
  · rfl
  · rename_i absent
    refine (Option.eq_none_iff_forall_ne_some.mpr fun job found => absent ?_).symm
    simp only [List.map_map, List.mem_map, List.mem_filterMap, List.mem_eraseDups]
    exact ⟨job, ⟨run.jobUuid, ⟨run, member, rfl⟩, found⟩, own found⟩

/-- The events of a batch are recorded in the order of its runs. -/
theorem perform_onRunsIngested (instanceId : JsString) (runs : List IngestedRun) :
    perform (AlertStore.respond sends) store (onRunsIngested table instanceId runs) =
      store.recordAll table sends ((outcomesOf runs).flatMap (store.runEvents instanceId)) := by
  have loop : ∀ body : IngestedRun → NotificationProgram PUnit,
      (∀ run, body run = ((store.context instanceId (outcomesOf runs)).get run.jobUuid).elim (pure ⟨⟩) fun job =>
        recordRun table instanceId job run) →
      ∀ (some_ : List IngestedRun) (now : AlertStore), some_ ⊆ outcomesOf runs → Raises store now →
        perform (AlertStore.respond sends) now (some_.forM body) =
          now.recordAll table sends (some_.flatMap (store.runEvents instanceId)) := by
    intro body each some_
    induction some_ with
    | nil => exact fun now _ _ => rfl
    | cons run rest ih =>
      intro now inside records
      have later := fun now => ih now fun other member => inside (List.mem_cons_of_mem _ member)
      have same : store.runEvents instanceId run = now.runEvents instanceId run := (records.runEvents _ _).symm
      have context : now.jobContext instanceId run.jobUuid = store.jobContext instanceId run.jobUuid := by
        rw [records.settled]
        rfl
      rw [List.forM_eq_forM, List.forM_cons, List.flatMap_cons, each, get_context (inside List.mem_cons_self), same,
        AlertStore.runEvents, context]
      cases store.jobContext instanceId run.jobUuid with
      | none => exact later now records
      | some job =>
        have recorded := perform_recordRun table sends now instanceId job run
        have onward := records.trans (records_recordAll table sends now (now.eventsOf instanceId job run))
        cases events : now.recordAll table sends (now.eventsOf instanceId job run) with
        | mk ended after =>
          rw [events] at recorded onward
          rw [Option.elim_some, Option.elim_some, recordAll_append, events]
          cases ended with
          | ok => exact (perform_bind recorded).trans (later after onward)
          | error thrown => exact perform_bind_error recorded
  unfold onRunsIngested
  change (perform _ _ (if outcomesOf runs = [] then _ else _)) = _
  by_cases bare : outcomesOf runs = []
  · rw [if_pos bare, bare]
    rfl
  · rw [if_neg bare]
    refine loop _ (fun run => ?_) (outcomesOf runs) store (fun _ member => member) (.refl store)
    split
    · rename_i missing
      rw [show (store.context instanceId (outcomesOf runs)).get run.jobUuid = none from missing]
      rfl
    · rename_i job found
      rw [show (store.context instanceId (outcomesOf runs)).get run.jobUuid = some job from found]
      rfl

/-! ## The events of a batch -/

/-- The kinds of events that a run can give. -/
def IngestedRun.kinds (run : IngestedRun) : List NotificationEventKind :=
  if run.runStatus = 0 then [.job_failed] else [.job_succeeded, .job_recovered]

theorem mem_runEvents {instanceId : JsString} {run : IngestedRun} {input : RecordEventInput}
    (member : input ∈ store.runEvents instanceId run) :
    ∃ job ∈ store.jobContext instanceId run.jobUuid, ∃ kind ∈ run.kinds, ∃ particular,
      input = runEvent kind instanceId job run particular := by
  unfold AlertStore.runEvents at member
  cases context : store.jobContext instanceId run.jobUuid with
  | none =>
    rw [context] at member
    cases member
  | some job =>
    rw [context, Option.elim_some, AlertStore.eventsOf] at member
    refine ⟨job, rfl, ?_⟩
    unfold IngestedRun.kinds
    split at member
    · rename_i failed
      rw [if_pos failed]
      exact ⟨_, List.mem_cons_self, _, List.mem_singleton.mp member⟩
    · rename_i notFailed
      rw [if_neg notFailed]
      have succeeded : ∀ {rest : List RecordEventInput}, input ∈ succeededEvent instanceId job run :: rest →
          input = succeededEvent instanceId job run ∨ input ∈ rest := List.mem_cons.mp
      split at member
      · rcases succeeded member with same | recovered
        · exact ⟨_, List.mem_cons_self, _, same⟩
        · exact ⟨_, List.mem_cons_of_mem _ List.mem_cons_self, _, List.mem_singleton.mp recovered⟩
      · exact ⟨_, List.mem_cons_self, _, List.mem_singleton.mp member⟩

theorem failedEvent_mem {instanceId : JsString} {run : IngestedRun} {job : JobContext} (failed : run.runStatus = 0)
    (context : store.jobContext instanceId run.jobUuid = some job) :
    ∃ history, failedEvent instanceId job run history ∈ store.runEvents instanceId run := by
  rw [AlertStore.runEvents, context, Option.elim_some, AlertStore.eventsOf, if_pos failed]
  exact ⟨_, List.mem_cons_self⟩

/-- No two events of a run are of one occurrence. -/
theorem nodup_runEvents (store : AlertStore) (instanceId : JsString) (run : IngestedRun) :
    ((store.runEvents instanceId run).map (·.dedupeKey)).Nodup := by
  unfold AlertStore.runEvents AlertStore.eventsOf
  cases store.jobContext instanceId run.jobUuid with
  | none => exact List.nodup_nil
  | some job =>
    rw [Option.elim_some]
    split
    · exact List.nodup_singleton _
    · dsimp only
      split
      · refine List.nodup_cons.mpr ⟨fun member => ?_, List.nodup_singleton _⟩
        have same := List.mem_singleton.mp member
        have kinds := kind_of_occurrence (same.trans (occurrence_eq _ _ _))
        cases kinds
      · exact List.nodup_singleton _

/-- No two events of a batch are of one occurrence. -/
theorem nodup_batch {instanceId : JsString} {runs : List IngestedRun} (place : ColonFree instanceId)
    (uuids : ∀ run ∈ runs, ColonFree run.jobUuid) (distinct : (runs.map (·.sqlInstanceId)).Nodup) :
    (((runs.flatMap (store.runEvents instanceId))).map (·.dedupeKey)).Nodup := by
  rw [List.map_flatMap, List.nodup_flatMap]
  refine ⟨fun run _ => nodup_runEvents store instanceId run, ?_⟩
  have apart : runs.Pairwise fun a b => a.sqlInstanceId ≠ b.sqlInstanceId := List.pairwise_map.mp distinct
  refine apart.imp_of_mem fun {a b} first second differ => ?_
  intro key inFirst inSecond
  obtain ⟨input, member, rfl⟩ := List.mem_map.mp inFirst
  obtain ⟨other, there, same⟩ := List.mem_map.mp inSecond
  obtain ⟨job, -, kind, -, particular, rfl⟩ := mem_runEvents member
  obtain ⟨job', -, kind', -, particular', rfl⟩ := mem_runEvents there
  exact differ (occurrence_inj place place (uuids b second) (uuids a first) same).2.2.2.symm

/-- What is particular to an event does not decide who is told. -/
theorem wired_runEvent {kind : NotificationEventKind} {instanceId : JsString} {job : JobContext} {run : IngestedRun}
    {particular : List (JsString × JsonValue)} :
    store.Wired table (runEvent kind instanceId job run particular) ↔
      store.Wired table (runEvent kind instanceId job run []) := by
  have named :
      (runEvent kind instanceId job run particular).jobName = (runEvent kind instanceId job run []).jobName := rfl
  have matched : ∀ rule : NotificationRule, rule.Matches table (runEvent kind instanceId job run particular) ↔
      rule.Matches table (runEvent kind instanceId job run []) := by
    intro rule
    unfold NotificationRule.Matches
    rw [named]
    rfl
  unfold AlertStore.Wired
  simp only [mem_targets, matched]

end Runs

end RemoteSqlAgent
