import RemoteSqlAgent.WorkerTables

/-! Calls that keep to one worker, and what they leave alone. A call keeps to a worker
if the rows it writes are of that worker's instances and commands; then nothing of
another worker changes. -/
namespace RemoteSqlAgent
open Js CallProgram

/-! ## Calls that keep to a worker -/

section
variable (workerId : JsString) (owned commanded addressed : JsString → Prop)

/-- The call writes only commands that are in the set, and sends only to workers
that are. -/
def CommandCall.KeepsTo : CommandCall → Prop
  | .insertCommand _ => False
  | .updateCommand commandId _ => commanded commandId
  | .updateForWorker _ owner _ => owner = workerId
  | .expireStale _ _ => False
  | .send owner _ => addressed owner
  | _ => True

/-- The call writes only jobs of instances that are in the set. -/
def JobCall.KeepsTo : JobCall → Prop
  | .recordJobVersion input => owned input.instanceId
  | .markJobDeleted instanceId _ => owned instanceId
  | .markJobsMissingFromSnapshot instanceId _ => owned instanceId

def HubCall.KeepsTo : HubCall → Prop
  | .command statement => statement.KeepsTo workerId commanded addressed
  | .job statement => statement.KeepsTo owned
  | .recordWorkerHello owner _ _ _ => owner = workerId
  | .recordCredentialKey owner _ => owner = workerId
  | .upsertInstance owner _ => owner = workerId
  | .insertSyncState instanceId => owned instanceId
  | .touchWorker owner => owner = workerId
  | .sendHelloAck owner _ => owner = workerId
  | .pushInstanceConfigs owner => owner = workerId
  | .markWorkerDisconnected owner => owner = workerId
  | _ => True

def HistoryCall.KeepsTo : HistoryCall → Prop
  | .insertHistory values => ∀ value ∈ values, owned value.instanceId
  | .raiseHighWaterMark instanceId _ => owned instanceId
  | .updateLastRun job _ => owned job.instanceId
  | _ => True

def StreamCall.KeepsTo : StreamCall → Prop
  | .hub statement => statement.KeepsTo workerId owned commanded addressed
  | .history statement => statement.KeepsTo owned
  | .upsertActivity job _ => owned job.instanceId
  | .updateNextRun job _ => owned job.instanceId
  | .insertAgentLog values => ∀ value ∈ values, owned value.instanceId
  | .raiseAgentLogMark instanceId _ => owned instanceId
  | .updateConfigStatus owner _ _ _ => owner = workerId
  | .storeRenewal owner _ _ => owner = workerId
  | .sendRenewal owner _ => owner = workerId
  | .elsewhere => False
  | _ => True

end

theorem HistoryCall.KeepsTo.mono {owned owned' : JsString → Prop} {call : HistoryCall} (keeps : call.KeepsTo owned)
    (each : ∀ id, owned id → owned' id) : call.KeepsTo owned' := by
  cases call with
  | insertHistory values => exact fun value member => each _ (keeps value member)
  | raiseHighWaterMark instanceId mark => exact each _ keeps
  | updateLastRun job latest => exact each _ keeps
  | selectHighWaterMark | selectLatest => trivial

/-- A call that keeps to some sets keeps to larger ones. -/
theorem StreamCall.KeepsTo.mono {workerId : JsString} {owned commanded addressed : JsString → Prop}
    {owned' commanded' addressed' : JsString → Prop} {call : StreamCall}
    (keeps : call.KeepsTo workerId owned commanded addressed) (ofInstances : ∀ id, owned id → owned' id)
    (ofCommands : ∀ id, commanded id → commanded' id) (ofWorkers : ∀ id, addressed id → addressed' id) :
    call.KeepsTo workerId owned' commanded' addressed' := by
  cases call with
  | hub statement =>
    cases statement with
    | command statement =>
      cases statement with
      | updateCommand commandId update => exact ofCommands _ keeps
      | send owner command => exact ofWorkers _ keeps
      | _ => exact keeps
    | job statement => cases statement <;> exact ofInstances _ keeps
    | insertSyncState instanceId => exact ofInstances _ keeps
    | _ => exact keeps
  | history statement => exact HistoryCall.KeepsTo.mono keeps ofInstances
  | upsertActivity job activity => exact ofInstances _ keeps
  | updateNextRun job nextRunAt => exact ofInstances _ keeps
  | insertAgentLog values => exact fun value member => ofInstances _ (keeps value member)
  | raiseAgentLogMark instanceId newest => exact ofInstances _ keeps
  | _ => exact keeps

/-! ## What such a call leaves alone -/

/-- Rows that are changed belong to someone else. -/
theorem filter_updateWhere {Row : Type} {rows : List Row} {test mine : Row → Bool} {change : Row → Row}
    (apart : ∀ row, test row = true → mine row = false ∧ mine (change row) = false) :
    (updateWhere rows test change).filter mine = rows.filter mine := by
  induction rows with
  | nil => rfl
  | cons row rest ih =>
    unfold updateWhere at ih ⊢
    rw [List.map_cons, List.filter_cons, List.filter_cons, ih]
    split
    · rename_i tested
      simp [apart row tested]
    · rfl

section Effects
variable {workerId other : JsString} {store after : StreamStore}

theorem ne_of_owns (different : other ≠ workerId) {id instanceId : JsString} (mine : store.Owns workerId instanceId)
    (theirs : store.Owns other id) : id ≠ instanceId := by
  rintro rfl
  exact different (theirs.unique mine)

/-- A change of other workers' tables by the key of one. -/
theorem update_of_owns {Column : Type} {table : JsString → Column} (different : other ≠ workerId)
    {instanceId : JsString}
    (mine : store.Owns workerId instanceId) (value : Column) (id : JsString) (theirs : store.Owns other id) :
    Function.update table instanceId value id = table id :=
  Function.update_of_ne (ne_of_owns different mine theirs) _ _

theorem update_job_of_owns {Column : Type} {table : JobKey → Column} (different : other ≠ workerId) {job : JobKey}
    (mine : store.Owns workerId job.instanceId) (value : Column) (key : JobKey)
    (theirs : store.Owns other key.instanceId) :
    Function.update table job value key = table key :=
  Function.update_of_ne (fun same => ne_of_owns different mine theirs (congrArg JobKey.instanceId same)) _ _

/-- Rows that are inserted belong to someone else. -/
theorem filter_insertNew {Row Key : Type} [DecidableEq Key] {key : Row → Key} {table : KeyedTable key}
    {values : List Row}
    {mine : Row → Bool} (apart : ∀ value ∈ values, mine value = false) :
    (table.insertNew values).1.rows.filter mine = table.rows.filter mine := by
  have none_ : (table.insertNew values).2.filter mine = [] := by
    refine List.filter_eq_nil_iff.mpr fun row inserted => ?_
    simp [apart row (KeyedTable.mem_of_inserted inserted).1]
  rw [KeyedTable.rows_insertNew, List.filter_append, none_, List.append_nil]

theorem untouched_updateWorker (different : other ≠ workerId) (change : WorkersRow → WorkersRow) :
    Untouched other store { store with tables := store.tables.updateWorker workerId change } :=
  { Untouched.refl other store with worker := Function.update_of_ne different _ _ }

theorem untouched_updateConfigs (different : other ≠ workerId) {test : WorkerInstanceConfig → Bool}
    (mine : ∀ row, test row = true → row.workerId = workerId) (status : ConfigStatus) (detail : Option JsString)
    (now : Int) :
    Untouched other store { store with tables := store.tables.updateConfigs test status detail now } :=
  { Untouched.refl other store with
    workerInstanceConfigs := filter_updateWhere fun row tested => by
      have apart : row.workerId ≠ other := fun same => different (same.symm.trans (mine row tested))
      simp [apart] }

theorem untouched_push (different : other ≠ workerId) (message : StreamPush) :
    Untouched other store { store with tables := store.tables.push workerId message } :=
  { Untouched.refl other store with
    sent := by
      simp [WorkerTables.push, List.filter_append, different.symm] }

theorem untouched_storeRenewal (different : other ≠ workerId) (current id : JsString) (issued : IssuedCertificate)
    (now : Int) :
    Untouched other store { store with tables := store.tables.storeRenewal workerId current id issued now } :=
  { Untouched.refl other store with
    worker := Function.update_of_ne different _ _
    workerCredentials := by
      unfold WorkerTables.storeRenewal
      dsimp only
      rw [filter_updateWhere, List.filter_append]
      · simp [WorkerTables.renewedCredential, different.symm]
      · intro row tested
        have mine : row.workerId = workerId := (of_decide_eq_true tested).1
        simp [mine, different.symm] }

/-- A transaction on the jobs of some instances leaves those of others alone. -/
theorem jobs_apart {runtime : Runtime} {tables later : JobTables} {statement : JobCall} {answer : JobAnswer statement}
    {owned : JsString → Prop} (does : statement.Does runtime tables answer later) (keeps : statement.KeepsTo owned)
    {key : JobKey} (apart : ¬ owned key.instanceId) :
    later.jobs key = tables.jobs key ∧ later.jobVersions key = tables.jobVersions key := by
  cases statement with
  | recordJobVersion input =>
    have elsewhere : key ≠ input.key := by
      rintro rfl
      exact apart keeps
    cases answer with
    | error message =>
      cases does
      exact ⟨rfl, rfl⟩
    | ok result =>
      obtain ⟨now, recorded⟩ := does
      cases parsed : parseJobDefinition runtime input.canonicalJson with
      | error message =>
        rw [JobTables.recordJobVersion_of_error parsed] at recorded
        cases recorded
      | ok definition =>
        rw [JobTables.recordJobVersion_of_parsed parsed, Except.ok.injEq] at recorded
        rcases JobTables.observe_cases tables input definition (input.detectedAt.getD now) with
          ⟨existing, -, -, repeated⟩ | ⟨-, version, -, added⟩
        · rw [repeated] at recorded
          cases recorded
          refine ⟨?_, by rw [JobTables.reappear_jobVersions]⟩
          unfold JobTables.reappear
          split
          · exact Function.update_of_ne elsewhere _ _
          · rfl
        · rw [added] at recorded
          cases recorded
          exact ⟨Function.update_of_ne elsewhere _ _, Function.update_of_ne elsewhere _ _⟩
  | markJobDeleted instanceId jobUuid =>
    cases answer with
    | error message =>
      cases does
      exact ⟨rfl, rfl⟩
    | ok _ =>
      obtain ⟨now, rfl⟩ := does
      refine ⟨Function.update_of_ne ?_ _ _, rfl⟩
      rintro rfl
      exact apart keeps
  | markJobsMissingFromSnapshot instanceId seen =>
    cases answer with
    | error message =>
      cases does
      exact ⟨rfl, rfl⟩
    | ok _ =>
      obtain ⟨now, rfl⟩ := does
      have elsewhere : key.instanceId ≠ instanceId := fun same => apart (same ▸ keeps)
      refine ⟨?_, rfl⟩
      simp [JobTables.markJobsMissingFromSnapshot, elsewhere]

/-- A change of rows that keeps their workers, and is none for those of a worker. -/
theorem updateRows_apart {commands : CommandStore} {change : JsString → CommandRow → CommandRow}
    (keeps : ∀ id row, (change id row).workerId = row.workerId)
    (apart : ∀ id row, commands.commands id = some row → row.workerId = other → change id row = row)
    (id : JsString) (row : CommandRow) (theirs : row.workerId = other) :
    (commands.updateRows change).commands id = some row ↔ commands.commands id = some row := by
  rw [CommandStore.updateRows_commands, Option.map_eq_some_iff]
  constructor
  · rintro ⟨old, found, rfl⟩
    rw [apart id old found ((keeps id old).symm.trans theirs), found]
  · exact fun found => ⟨row, found, apart id row found theirs⟩

/-- Commands that are written or sent are of the worker. -/
theorem commands_apart {commands later : CommandStore} {statement : CommandCall} {answer : CommandAnswer statement}
    (does : statement.Does commands answer later) (different : other ≠ workerId)
    (keeps : statement.KeepsTo workerId
      (fun id => ∃ row, commands.commands id = some row ∧ row.workerId = workerId) (· = workerId)) :
    (∀ id row, row.workerId = other → (later.commands id = some row ↔ commands.commands id = some row)) ∧
      later.sent.filter (·.1 = other) = commands.sent.filter (·.1 = other) := by
  have same (unchanged : later = commands) :
      (∀ id row, row.workerId = other → (later.commands id = some row ↔ commands.commands id = some row)) ∧
        later.sent.filter (·.1 = other) = commands.sent.filter (·.1 = other) := by
    rw [unchanged]
    exact ⟨fun _ _ _ => Iff.rfl, rfl⟩
  cases statement with
  | insertCommand values => exact keeps.elim
  | expireStale completedAt now => exact keeps.elim
  | selectCommand commandId | selectDispatch commandId | selectForWorker commandId owner | selectApproved owner =>
    cases answer with
    | error message => exact same does
    | ok answered => exact same does.1
  | selectGrant instanceId | writeAudit entry | selectUsername userId => cases answer <;> exact same does
  | updateCommand commandId update =>
    cases answer with
    | error message => exact same does
    | ok _ =>
      subst does
      obtain ⟨own, found, mine⟩ := keeps
      refine ⟨updateRows_apart (fun id row => ?_) fun id row here theirs => if_neg ?_, rfl⟩
      · split <;> simp
      · rintro rfl
        cases found.symm.trans here
        exact different (theirs.symm.trans mine)
  | updateForWorker commandId owner update =>
    cases answer with
    | error message => exact same does
    | ok _ =>
      subst does
      cases keeps
      refine ⟨updateRows_apart (fun id row => ?_) fun id row here theirs => if_neg ?_, rfl⟩
      · split <;> simp
      · rintro ⟨-, mine⟩
        exact different (theirs.symm.trans mine)
  | readClock | isLive owner => exact same does
  | send owner command =>
    subst does
    cases keeps
    refine ⟨fun _ _ _ => Iff.rfl, ?_⟩
    simp [List.filter_append, different.symm]

/-- What the hub does for a worker with commands, jobs and instances. -/
theorem hub_apart {runtime : Runtime} {statement : HubCall} {answer : HubAnswer statement} {later : HubStore}
    (does : statement.Does runtime store.hub answer later) (different : other ≠ workerId)
    (keeps : statement.KeepsTo workerId (store.Owns workerId) (store.Commands workerId) (· = workerId)) :
    later.instances.filter (·.workerId = other) = store.instances.rows.filter (·.workerId = other) ∧
      (∀ key : JobKey, store.Owns other key.instanceId → later.tables.jobs key = store.jobs.jobs key ∧
        later.tables.jobVersions key = store.jobs.jobVersions key) ∧
      (∀ id row, row.workerId = other →
        (later.commands.commands id = some row ↔ store.commands.commands id = some row)) ∧
      later.commands.sent.filter (·.1 = other) = store.commands.sent.filter (·.1 = other) := by
  have same (unchanged : later = store.hub) :
      later.instances.filter (·.workerId = other) = store.instances.rows.filter (·.workerId = other) ∧
        (∀ key : JobKey, store.Owns other key.instanceId → later.tables.jobs key = store.jobs.jobs key ∧
          later.tables.jobVersions key = store.jobs.jobVersions key) ∧
        (∀ id row, row.workerId = other →
          (later.commands.commands id = some row ↔ store.commands.commands id = some row)) ∧
        later.commands.sent.filter (·.1 = other) = store.commands.sent.filter (·.1 = other) := by
    rw [unchanged]
    exact ⟨rfl, fun _ _ => ⟨rfl, rfl⟩, fun _ _ _ => Iff.rfl, rfl⟩
  cases statement with
  | command statement =>
    obtain ⟨commands, does, rfl⟩ := does
    obtain ⟨rows, sent⟩ := commands_apart does different keeps
    exact ⟨rfl, fun _ _ => ⟨rfl, rfl⟩, rows, sent⟩
  | job statement =>
    obtain ⟨tables, does, rfl⟩ := does
    exact ⟨rfl, fun key theirs => jobs_apart does keeps fun mine => different (theirs.unique mine),
      fun _ _ _ => Iff.rfl, rfl⟩
  | upsertInstance owner instanceName =>
    cases answer with
    | error message => exact same does
    | ok id =>
      rcases does with ⟨-, unchanged⟩ | ⟨-, -, rfl⟩
      · exact same unchanged
      · cases keeps
        refine ⟨?_, fun _ _ => ⟨rfl, rfl⟩, fun _ _ _ => Iff.rfl, rfl⟩
        simp [HubStore.addInstance, StreamStore.hub, List.filter_append, different.symm]
  | recordWorkerHello | recordCredentialKey | insertSyncState | touchWorker | pushInstanceConfigs
  | markWorkerDisconnected => cases answer <;> exact same does
  | receive | readClock | register | unregister | sendHelloAck => exact same does

/-- What the hub does for a worker with the other tables. An instance that it upserts
is one of the worker then. -/
theorem writes_untouched {crypto : Crypto} {statement : HubCall} {answer : HubAnswer statement} {later : WorkerTables}
    (writes : statement.Writes crypto store.tables answer later) (different : other ≠ workerId)
    (keeps : statement.KeepsTo workerId (store.Owns workerId) (store.Commands workerId) (· = workerId))
    (upserted : ∀ instanceName id, (⟨statement, answer⟩ : Exchange HubAnswer) =
      ⟨.upsertInstance workerId instanceName, .ok id⟩ →
      ¬ store.Owns other id) :
    Untouched other store { store with tables := later } := by
  have same (unchanged : later = store.tables) : Untouched other store { store with tables := later } := by
    rw [unchanged]
    exact .refl other store
  cases statement with
  | recordWorkerHello owner version reported remoteAddress =>
    cases keeps
    cases answer with
    | error message => exact same writes
    | ok found =>
      obtain ⟨row, now, -, -, rfl⟩ := writes
      exact untouched_updateWorker different _
  | recordCredentialKey owner publicKey =>
    cases keeps
    cases answer with
    | error message =>
      rcases writes with unchanged | ⟨der, -, rfl⟩
      · exact same unchanged
      · exact untouched_updateWorker different _
    | ok changed =>
      obtain ⟨der, now, -, -, rfl⟩ := writes
      have published : Untouched other store { store with
          tables := store.tables.publishKey workerId publicKey (js (crypto.sha256 der)) } :=
        untouched_updateWorker different _
      cases changed with
      | false => exact published
      | true =>
        exact published.trans (untouched_updateConfigs different (fun row tested => (of_decide_eq_true tested).1) _ _ _)
  | upsertInstance owner instanceName =>
    cases keeps
    cases answer with
    | error message => exact same writes
    | ok id =>
      obtain ⟨columns, rfl⟩ := writes
      exact { Untouched.refl other store with
        instanceColumns := fun otherId theirs => Function.update_of_ne (fun same => by
          rw [same] at theirs
          exact upserted instanceName id rfl theirs) _ _ }
  | insertSyncState instanceId =>
    cases answer with
    | error message => exact same writes
    | ok _ =>
      cases writes
      exact { Untouched.refl other store with historyHighWaterMark := update_of_owns different keeps _ }
  | touchWorker owner =>
    cases keeps
    cases answer with
    | error message => exact same writes
    | ok _ =>
      obtain ⟨now, rfl⟩ := writes
      exact untouched_updateWorker different _
  | sendHelloAck owner capabilities =>
    cases keeps
    rcases writes with unchanged | rfl
    · exact same unchanged
    · exact untouched_push different _
  | pushInstanceConfigs owner =>
    cases keeps
    cases answer with
    | error message => exact same writes
    | ok _ =>
      rcases writes with unchanged | rfl
      · exact same unchanged
      · exact untouched_push different _
  | markWorkerDisconnected owner =>
    cases keeps
    cases answer with
    | error message => exact same writes
    | ok _ =>
      cases writes
      exact untouched_updateWorker different _
  | receive | readClock | register | unregister | command | job => exact same writes

/-- An instance that a worker upserts is one of the worker, or is new. -/
theorem upserted_apart {runtime : Runtime} {instanceName id : JsString} {later : HubStore}
    (does : HubCall.Does runtime store.hub (.upsertInstance workerId instanceName) (.ok id) later)
    (different : other ≠ workerId) : ¬ store.Owns other id := by
  rintro ⟨row, member, rfl, theirs⟩
  rcases does with ⟨found, -⟩ | ⟨-, fresh, -⟩
  · obtain ⟨own, isOwn, same⟩ := Option.map_eq_some_iff.mp found
    have mine : own.workerId = workerId := by
      have passed := List.find?_some isOwn
      exact (of_decide_eq_true passed).1
    have there : own ∈ store.instances.rows := List.mem_of_find?_eq_some isOwn
    rw [store.instances.eq_of_key there member same] at mine
    exact different (theirs.symm.trans mine)
  · exact fresh (List.mem_map_of_mem member)

/-- **A step that keeps to a worker leaves the others alone.** -/
theorem does_untouched {runtime : Runtime} {statement : StreamCall} {answer : StreamAnswer statement}
    (does : statement.Does runtime store answer after) (different : other ≠ workerId)
    (keeps : statement.KeepsTo workerId (store.Owns workerId) (store.Commands workerId) (· = workerId)) :
    Untouched other store after := by
  have same (unchanged : after = store) : Untouched other store after := by
    rw [unchanged]
    exact .refl other store
  cases statement with
  | hub statement =>
    obtain ⟨inside, wider⟩ := does
    obtain ⟨instances, jobs, commands, sentCommands⟩ := hub_apart inside different keeps
    have tables := writes_untouched wider different keeps fun instanceName id isUpsert => by
      cases isUpsert
      exact upserted_apart inside different
    exact { tables with
      instances := instances
      jobs := fun key theirs => (jobs key theirs).1
      jobVersions := fun key theirs => (jobs key theirs).2
      commands := commands
      sentCommands := sentCommands }
  | history statement =>
    rcases does with ⟨-, rfl⟩ | ⟨-, unchanged⟩
    · cases statement with
      | insertHistory values =>
        exact { Untouched.refl other store with
          jobHistory := filter_insertNew fun value member => decide_eq_false fun theirs =>
            different (theirs.unique (keeps value member)) }
      | raiseHighWaterMark instanceId mark =>
        exact { Untouched.refl other store with historyHighWaterMark := update_of_owns different keeps _ }
      | selectHighWaterMark instanceId => exact .refl other store
      | selectLatest job => exact .refl other store
      | updateLastRun job latest =>
        change Untouched other store (store.withMirror (store.mirror.setLastRun job latest))
        unfold MirrorStore.setLastRun
        split
        · exact { Untouched.refl other store with lastRun := update_job_of_owns different keeps _ }
        · exact .refl other store
    · exact same unchanged
  | upsertActivity job activity =>
    cases answer with
    | error message => exact same does
    | ok _ =>
      cases does
      exact { Untouched.refl other store with jobActivity := update_job_of_owns different keeps _ }
  | updateNextRun job nextRunAt =>
    cases answer with
    | error message => exact same does
    | ok _ =>
      cases does
      exact { Untouched.refl other store with nextRunAt := update_job_of_owns different keeps _ }
  | insertAgentLog values =>
    cases answer with
    | error message => exact same does
    | ok _ =>
      cases does
      exact { Untouched.refl other store with
        agentLogEntries := filter_insertNew fun value member => decide_eq_false fun theirs =>
          different (theirs.unique (keeps value member)) }
  | raiseAgentLogMark instanceId newest =>
    cases answer with
    | error message => exact same does
    | ok _ =>
      cases does
      exact { Untouched.refl other store with
        historyHighWaterMark := update_of_owns different keeps _
        agentLogHighWaterMark := update_of_owns different keeps _ }
  | updateConfigStatus owner instanceName status detail =>
    cases keeps
    cases answer with
    | error message => exact same does
    | ok _ =>
      obtain ⟨now, rfl⟩ := does
      exact untouched_updateConfigs different (fun row tested => (of_decide_eq_true tested).1) _ _ _
  | storeRenewal owner current issued =>
    cases keeps
    cases answer with
    | error message => exact same does
    | ok _ =>
      obtain ⟨id, now, -, rfl⟩ := does
      exact untouched_storeRenewal different _ _ _ _
  | sendRenewal owner response =>
    cases keeps
    rcases does with unchanged | rfl
    · exact same unchanged
    · exact untouched_push different _
  | elsewhere => exact keeps.elim
  | receive | notification => exact same does
  | selectHistoryScrubConfig | selectScrubConfig | selectCommandContext | issueClientCertificate =>
    cases answer <;> exact same does

end Effects

end RemoteSqlAgent
