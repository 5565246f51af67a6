import RemoteSqlAgent.WorkerRules

/-! A session keeps to its worker. What it was told is the worker's stays the worker's,
so whatever it writes belongs to that worker, and no other can tell that the session
was there. -/
namespace RemoteSqlAgent
open Js CallProgram

/-! ## What was told stays true -/

/-- What a session was told of what belongs to whom. -/
def Belongs : Exchange StreamAnswer → StreamStore → Prop
  | ⟨.hub (.upsertInstance workerId _), .ok id⟩, store => store.Owns workerId id
  | ⟨.hub (.command (.selectApproved workerId)), .ok ids⟩, store => ∀ id ∈ ids, store.Commands workerId id
  | ⟨.hub (.command (.selectDispatch id)), .ok (some (row, _))⟩, store => store.Commands row.workerId id
  | _, _ => True

section Belonging
variable {runtime : Runtime} {store after : StreamStore}

/-- A step of the hub leaves every instance and every command with its worker. -/
theorem hub_keeps {statement : HubCall} {answer : HubAnswer statement} {hub later : HubStore}
    (does : statement.Does runtime hub answer later) :
    hub.instances ⊆ later.instances ∧ ∀ id row, hub.commands.commands id = some row →
      ∃ other, later.commands.commands id = some other ∧ other.workerId = row.workerId := by
  have same (unchanged : later = hub) : hub.instances ⊆ later.instances ∧
      ∀ id row, hub.commands.commands id = some row →
        ∃ other, later.commands.commands id = some other ∧ other.workerId = row.workerId := by
    rw [unchanged]
    exact ⟨List.Subset.refl _, fun id row found => ⟨row, found, rfl⟩⟩
  cases statement with
  | command statement =>
    obtain ⟨commands, does, rfl⟩ := does
    refine ⟨List.Subset.refl _, fun id row found => ?_⟩
    obtain ⟨other, isOther, ⟨update, -, rfl⟩ | ⟨-, rfl | ⟨-, at_, rfl⟩⟩⟩ := does_row does found
    · exact ⟨_, isOther, CommandUpdate.apply_workerId update row⟩
    · exact ⟨_, isOther, rfl⟩
    · exact ⟨_, isOther, rfl⟩
  | job statement =>
    obtain ⟨tables, -, rfl⟩ := does
    exact ⟨List.Subset.refl _, fun id row found => ⟨row, found, rfl⟩⟩
  | upsertInstance owner instanceName =>
    cases answer with
    | error message => exact same does
    | ok id =>
      rcases does with ⟨-, unchanged⟩ | ⟨-, -, rfl⟩
      · exact same unchanged
      · exact ⟨List.subset_append_left _ _, fun id row found => ⟨row, found, rfl⟩⟩
  | recordWorkerHello | recordCredentialKey | insertSyncState | touchWorker | pushInstanceConfigs
  | markWorkerDisconnected => cases answer <;> exact same does
  | receive | readClock | register | unregister | sendHelloAck => exact same does

/-- A step leaves every instance and every command with its worker. -/
theorem does_keeps {call : StreamCall} {answer : StreamAnswer call} (does : call.Does runtime store answer after) :
    store.instances.rows ⊆ after.instances.rows ∧
      ∀ workerId id, store.Commands workerId id → after.Commands workerId id := by
  have same (instances : after.instances = store.instances) (commands : after.commands = store.commands) :
      store.instances.rows ⊆ after.instances.rows ∧
        ∀ workerId id, store.Commands workerId id → after.Commands workerId id := by
    unfold StreamStore.Commands
    rw [instances, commands]
    exact ⟨List.Subset.refl _, fun _ _ there => there⟩
  cases call with
  | hub statement =>
    obtain ⟨instances, commands⟩ := hub_keeps does.1
    refine ⟨instances, fun workerId id ⟨row, found, mine⟩ => ?_⟩
    obtain ⟨other, isOther, kept⟩ := commands id row found
    exact ⟨other, isOther, kept.trans mine⟩
  | history statement =>
    rcases does with ⟨-, rfl⟩ | ⟨-, rfl⟩
    · exact same rfl rfl
    · exact same rfl rfl
  | elsewhere => exact does
  | updateConfigStatus =>
    cases answer with
    | error message => exact same (does ▸ rfl) (does ▸ rfl)
    | ok _ =>
      obtain ⟨now, rfl⟩ := does
      exact same rfl rfl
  | storeRenewal =>
    cases answer with
    | error message => exact same (does ▸ rfl) (does ▸ rfl)
    | ok _ =>
      obtain ⟨id, now, -, rfl⟩ := does
      exact same rfl rfl
  | sendRenewal =>
    rcases does with rfl | rfl
    · exact same rfl rfl
    · exact same rfl rfl
  | receive | notification => exact same (does ▸ rfl) (does ▸ rfl)
  | selectHistoryScrubConfig | selectScrubConfig | selectCommandContext | issueClientCertificate | upsertActivity
  | updateNextRun | insertAgentLog | raiseAgentLogMark => cases answer <;> exact same (does ▸ rfl) (does ▸ rfl)

theorem Owns.grows {workerId id : JsString} (owns : store.Owns workerId id)
    (rows : store.instances.rows ⊆ after.instances.rows) : after.Owns workerId id := by
  obtain ⟨row, member, mine⟩ := owns
  exact ⟨row, rows member, mine⟩

theorem belongs_stays {call : StreamCall} {answer : StreamAnswer call} (does : call.Does runtime store answer after)
    (exchange : Exchange StreamAnswer) (belongs : Belongs exchange store) : Belongs exchange after := by
  obtain ⟨instances, commands⟩ := does_keeps does
  unfold Belongs at belongs ⊢
  split
  · exact Owns.grows belongs instances
  · exact fun id member => commands _ _ (belongs id member)
  · exact commands _ _ belongs
  · trivial

/-- The instance of a worker that was upserted is one of the worker. -/
theorem owns_upserted {workerId instanceName id : JsString}
    (does : HubCall.Does runtime store.hub (.upsertInstance workerId instanceName) (.ok id) after.hub) :
    after.Owns workerId id := by
  have of_rows {row : InstanceRow} (member : row ∈ after.hub.instances) (is : row.id = id)
      (mine : row.workerId = workerId) :
      after.Owns workerId id := ⟨row, member, is, mine⟩
  rcases does with ⟨found, unchanged⟩ | ⟨-, -, added⟩
  · obtain ⟨row, isRow, is⟩ := Option.map_eq_some_iff.mp found
    have passed := List.find?_some isRow
    refine of_rows ?_ is (of_decide_eq_true passed).1
    rw [unchanged]
    exact List.mem_of_find?_eq_some isRow
  · have newest : (⟨id, workerId, instanceName⟩ : InstanceRow) ∈ after.hub.instances := by
      rw [added]
      exact List.mem_append_right _ List.mem_cons_self
    exact of_rows newest rfl rfl

/-- What a call tells is so. -/
theorem belongs_told {call : StreamCall} {answer : StreamAnswer call} (does : call.Does runtime store answer after) :
    Belongs ⟨call, answer⟩ after := by
  cases call with
  | hub statement =>
    cases statement with
    | upsertInstance workerId instanceName =>
      cases answer with
      | error message => trivial
      | ok id => exact owns_upserted does.1
    | command statement =>
      obtain ⟨⟨commands, inside, isAfter⟩, -⟩ := does
      have here : after.commands = commands := congrArg HubStore.commands isAfter
      cases statement with
      | selectApproved workerId =>
        cases answer with
        | error message => trivial
        | ok ids =>
          obtain ⟨rfl, listed, -⟩ := inside
          intro id member
          have passed := (List.mem_filter.mp (listed.mem_iff.mp member)).2
          obtain ⟨row, found, test⟩ := (Option.any_eq_true _ _).mp passed
          exact ⟨row, by rw [here, found], (of_decide_eq_true test).1⟩
      | selectDispatch id =>
        cases answer with
        | error message => trivial
        | ok found =>
          cases found with
          | none => trivial
          | some found =>
            obtain ⟨rfl, isRow⟩ := inside
            exact ⟨found.1, here ▸ isRow.symm, rfl⟩
      | _ => trivial
    | _ => trivial
  | _ => trivial

end Belonging

/-! ## Runs -/

/-- What an operation goes by. Only the sessions are looked at. -/
def StreamFollows : StreamOperation → List (Exchange StreamAnswer) → StreamCall → Prop
  | .session _ worker _ _, said, request => StreamRule worker.workerId said request
  | .command _, _, _ => True
  | .elsewhere, _, _ => True

theorem obeys_stream (config : StreamConfig) (operation : StreamOperation) :
    Obeys (StreamFollows operation) [] (operation.body config) := by
  cases operation with
  | session number worker remoteAddress count => exact obeys_streamSession count
  | command operation => exact (obeys_any _).mono fun _ _ _ => trivial
  | elsewhere => exact (obeys_any _).mono fun _ _ _ => trivial

/-- What a session was told is the worker's, belongs to the worker. -/
theorem keepsTo_of_told {workerId : JsString} {said : List (Exchange StreamAnswer)} {call : StreamCall}
    {store : StreamStore}
    (rule : StreamRule workerId said call) (told : ∀ exchange ∈ said, Belongs exchange store) :
    call.KeepsTo workerId (store.Owns workerId) (store.Commands workerId) (· = workerId) := by
  have hubSaid {request : HubCall} {answer : HubAnswer request} (heard : ⟨request, answer⟩ ∈ said.filterMap ofHub) :
      Belongs ⟨.hub request, answer⟩ store := by
    obtain ⟨⟨call, reply⟩, there, same⟩ := List.mem_filterMap.mp heard
    cases call with
    | hub statement =>
      cases same
      exact told _ there
    | _ => cases same
  have commandSaid {request : CommandCall} {answer : CommandAnswer request}
      (heard : ⟨request, answer⟩ ∈ (said.filterMap ofHub).filterMap ofCommand) :
      Belongs ⟨.hub (.command request), answer⟩ store := by
    obtain ⟨⟨call, reply⟩, there, same⟩ := List.mem_filterMap.mp heard
    cases call with
    | command statement =>
      cases same
      exact hubSaid there
    | _ => cases same
  have listed {id : JsString} (isListed : Listed workerId ((said.filterMap ofHub).filterMap ofCommand) id) :
      store.Commands workerId id := by
    obtain ⟨ids, heard, member⟩ := isListed
    exact commandSaid heard id member
  refine rule.mono (fun id isTold => ?_) (fun id => listed) fun owner addressed => ?_
  · obtain ⟨instanceName, heard⟩ := isTold
    exact hubSaid heard
  · obtain ⟨commandId, row, instanceName, isListed, heard, rfl⟩ := addressed
    obtain ⟨mine, found, ofWorker⟩ := listed isListed
    obtain ⟨other, isOther, same⟩ := commandSaid heard
    cases found.symm.trans isOther
    exact same.symm.trans ofWorker

/-- **Workers are isolated from each other.** Whatever a worker sends, and whatever
else goes on meanwhile, no step of a session of that worker touches what belongs to
another worker or sends anything to one. So if only sessions of one worker take
steps, everything of the others is as it was at the start. -/
theorem worker_isolated (config : StreamConfig) {initial : StreamStore}
    {pool : Pool StreamAnswer JsString Unit StreamStore StreamOperation}
    {run : List (Taken StreamAnswer StreamStore StreamOperation)}
    (reaches : Reaches (StreamCall.Does config.hub.runtime) (StreamOperation.body config) initial pool run)
    (workerId other : JsString) (different : other ≠ workerId) :
    (∀ taken ∈ run, ∀ number worker remoteAddress count,
      taken.operation = .session number worker remoteAddress count → worker.workerId = workerId →
        Untouched other taken.before taken.after) ∧
    ((∀ taken ∈ run, ∃ number worker remoteAddress count,
      taken.operation = .session number worker remoteAddress count ∧ worker.workerId = workerId) →
        Untouched other initial pool.state) := by
  have allowed := (reaches.allowed StreamFollows (obeys_stream config)).2
  have told := (reaches.told Belongs (fun taken member => belongs_told (reaches.does taken member))
    fun taken member => belongs_stays (reaches.does taken member)).2
  have each : ∀ taken ∈ run, ∀ number worker remoteAddress count,
      taken.operation = .session number worker remoteAddress count → worker.workerId = workerId →
        Untouched other taken.before taken.after := by
    rintro taken member number worker remoteAddress count session rfl
    have rule := allowed taken member
    rw [session] at rule
    exact does_untouched (reaches.does taken member) different (keepsTo_of_told rule (told taken member))
  refine ⟨each, fun only => ?_⟩
  refine (reaches.invariant (Untouched other initial) (.refl other initial) fun taken member before => ?_).1
  obtain ⟨number, worker, remoteAddress, count, session, mine⟩ := only taken member
  exact before.trans (each taken member number worker remoteAddress count session mine)

/-! ## A sample -/

def sampleStream : StreamConfig where
  hub := sampleHub
  caseTable := basicTable
  compileScrubPattern pattern := .error pattern
  toISOString := decimal
  enabledModes := [.token]

/-- A control plane that answers what a heartbeat and the end of a job ask for. The
next message is this one, and the next instance gets the id `i2`. -/
def streamAnswerTo (message : StreamMessage) (store : StreamStore) :
    (call : StreamCall) → Option (StreamAnswer call × StreamStore)
  | .receive => some (message, store)
  | .hub (.touchWorker workerId) => some (.ok (), { store with
      tables := store.tables.updateWorker workerId fun row => { row with lastSeenAt := some 1000 } })
  | .hub (.upsertInstance workerId instanceName) =>
    if free : store.hub.instanceId workerId instanceName = none ∧ ¬ store.instances.Holds (js "i2") then
      some (.ok (js "i2"), { store with
        instances := store.instances.add ⟨js "i2", workerId, instanceName⟩ free.2
        tables := { store.tables with
          instanceColumns := Function.update store.tables.instanceColumns (js "i2") (some {
            serverName := none, sqlVersion := none, sqlEdition := none, agentStatus := js "running"
            jobWriteMode := none, lastSeenAt := 1000 }) } })
    else none
  | .hub (.insertSyncState instanceId) => some (.ok (), { store with
      tables := { store.tables with
        historyHighWaterMark := Function.update store.tables.historyHighWaterMark instanceId
          (some ((store.tables.historyHighWaterMark instanceId).getD 0)) } })
  | .hub (.job (.markJobDeleted instanceId jobUuid)) =>
    some (.ok (), { store with jobs := store.jobs.markJobDeleted instanceId jobUuid 1000 })
  | _ => none

theorem streamAnswerTo_does {message : StreamMessage} {store after : StreamStore} {call : StreamCall}
    {answer : StreamAnswer call} (answered : streamAnswerTo message store call = some (answer, after)) :
    call.Does sampleStream.hub.runtime store answer after := by
  unfold streamAnswerTo at answered
  split at answered
  · cases answered
    rfl
  · cases answered
    exact ⟨rfl, 1000, rfl⟩
  · split at answered
    · rename_i free
      cases answered
      exact ⟨.inr ⟨free.1, free.2, rfl⟩, _, rfl⟩
    · cases answered
  · cases answered
    exact ⟨rfl, rfl⟩
  · cases answered
    exact ⟨⟨_, ⟨1000, rfl⟩, rfl⟩, rfl⟩
  · cases answered

/-- A worker `w1` with one instance and one job. -/
def sampleNeighbour : StreamStore where
  commands := .empty
  jobs := JobTables.empty.setJob ⟨js "i1", js "j1"⟩ {
    name := js "Nightly load", enabled := true, categoryName := none, ownerLoginName := none, description := none
    currentVersionNo := 1, currentDefinitionHash := some (js "h1"), isDrifted := false, driftDetectedAt := none
    deletedAt := none, updatedAt := 0 }
  instances := ⟨[⟨js "i1", js "w1", js "SQL01"⟩], by simp⟩
  tables := {
    workers := fun _ => none, instanceColumns := fun _ => none, jobHistory := .empty
    historyHighWaterMark := fun _ => none, agentLogHighWaterMark := fun _ => none, lastRun := fun _ => none
    nextRunAt := fun _ => none, jobActivity := fun _ => none, agentLogEntries := .empty
    workerInstanceConfigs := [], workerCredentials := [], sent := [] }

def intruder : StreamWorker where
  workerId := js "w2"
  hostName := js "HOST2"
  mode := .token
  credentialId := js "k2"

/-- Another worker reports an instance of the same name, and says that the job of the
same id is gone. -/
def intrusion : List (Move StreamAnswer StreamStore StreamOperation) :=
  .begin (.session 0 intruder (js "10.0.0.6") 2) ::
    (List.replicate 4 (.step 0 (streamAnswerTo (.heartbeat [js "SQL01"]))) ++
      List.replicate 2 (.step 0 (streamAnswerTo (.definition {
        instanceName := js "SQL01"
        job := some { jobUuid := js "j1", canonicalJson := [], definitionHash := []
                      dateModified := { seconds := 0, nanos := 0 } }
        deleted := true
        appliedCommandId := [] }))))

theorem reaches_intrusion : Reaches (StreamCall.Does sampleStream.hub.runtime) (StreamOperation.body sampleStream)
    sampleNeighbour (intrusion.foldl (Pool.play (StreamOperation.body sampleStream)) (⟨sampleNeighbour, []⟩, [])).1
    (intrusion.foldl (Pool.play (StreamOperation.body sampleStream)) (⟨sampleNeighbour, []⟩, [])).2 := by
  refine reaches_play _ fun index world member store call answer after answered => ?_
  rcases List.mem_cons.mp member with same | inside
  · cases same
  · rcases List.mem_append.mp inside with first | second
    · obtain ⟨-, same⟩ := List.mem_replicate.mp first
      cases same
      exact streamAnswerTo_does answered
    · obtain ⟨-, same⟩ := List.mem_replicate.mp second
      cases same
      exact streamAnswerTo_does answered

/-- The other worker's own instance is made, and its job is not that of `w1`. -/
theorem intrusion_isolated : ∃ pool run,
    Reaches (StreamCall.Does sampleStream.hub.runtime) (StreamOperation.body sampleStream) sampleNeighbour pool run ∧
      run.length = 6 ∧ pool.state.Owns (js "w2") (js "i2") ∧ Untouched (js "w1") sampleNeighbour pool.state := by
  refine ⟨_, _, reaches_intrusion, by decide +kernel, by decide +kernel, ?_⟩
  refine (worker_isolated sampleStream reaches_intrusion (js "w2") (js "w1") (by decide)).2 fun taken member => ?_
  have begun := begun_of_played intrusion taken member
  rcases List.mem_cons.mp begun with same | inside
  · exact ⟨0, intruder, js "10.0.0.6", 2, Move.begin.inj same, rfl⟩
  · rcases List.mem_append.mp inside with first | second
    · exact nomatch (List.mem_replicate.mp first).2
    · exact nomatch (List.mem_replicate.mp second).2

end RemoteSqlAgent
