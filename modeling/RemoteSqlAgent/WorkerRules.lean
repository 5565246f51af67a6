import RemoteSqlAgent.HistoryHandler
import RemoteSqlAgent.HubRules
import RemoteSqlAgent.WorkerEffects

/-! What a session goes by. The names and ids that messages give are looked up among
the instances that the session upserted for its worker and the commands that were
found to be the worker's, so every call keeps to the worker. -/
namespace RemoteSqlAgent
open Js CallProgram

/-! ## What a session was told -/

/-- The instance is one that the session upserted for the worker. -/
def Told (workerId : JsString) (said : List (Exchange HubAnswer)) (instanceId : JsString) : Prop :=
  ∃ instanceName, ⟨.upsertInstance workerId instanceName, .ok instanceId⟩ ∈ said

/-- The command was listed as one that waits for the worker. -/
def Listed (workerId : JsString) (said : List (Exchange CommandAnswer)) (commandId : JsString) : Prop :=
  ∃ ids, ⟨.selectApproved workerId, .ok ids⟩ ∈ said ∧ commandId ∈ ids

/-- A command that was listed was found to be for the worker `owner`. -/
def Addressed (workerId : JsString) (said : List (Exchange CommandAnswer)) (owner : JsString) : Prop :=
  ∃ commandId row instanceName, Listed workerId said commandId ∧
    ⟨.selectDispatch commandId, .ok (some (row, instanceName))⟩ ∈ said ∧ owner = row.workerId

def CommandRule (workerId : JsString) (said : List (Exchange CommandAnswer)) (call : CommandCall) : Prop :=
  call.KeepsTo workerId (Listed workerId said) (Addressed workerId said)

def HubRule (workerId : JsString) (said : List (Exchange HubAnswer)) (call : HubCall) : Prop :=
  call.KeepsTo workerId (Told workerId said) (Listed workerId (said.filterMap ofCommand))
    (Addressed workerId (said.filterMap ofCommand))

def ofHub : Exchange StreamAnswer → Option (Exchange HubAnswer)
  | ⟨.hub statement, answer⟩ => some ⟨statement, answer⟩
  | _ => none

/-- What a session goes by: it writes what it was told is the worker's. -/
def StreamRule (workerId : JsString) (said : List (Exchange StreamAnswer)) (call : StreamCall) : Prop :=
  call.KeepsTo workerId (Told workerId (said.filterMap ofHub))
    (Listed workerId ((said.filterMap ofHub).filterMap ofCommand))
    (Addressed workerId ((said.filterMap ofHub).filterMap ofCommand))

/-! ## Commands -/

section Commands
variable {config : ServiceConfig} {workerId commandId : JsString} {said later : List (Exchange CommandAnswer)}

theorem Listed.append (listed : Listed workerId said commandId) : Listed workerId (said ++ later) commandId := by
  obtain ⟨ids, heard, member⟩ := listed
  exact ⟨ids, List.mem_append_left _ heard, member⟩

private theorem obeys_expiring (listed : Listed workerId said commandId) :
    Obeys (CommandRule workerId) said (markExpired commandId) :=
  .call trivial fun _ => .call listed.append fun answer => obeys_orFail answer

theorem obeys_dispatchListed (listed : Listed workerId said commandId) :
    Obeys (CommandRule workerId) said (dispatch config commandId) := by
  refine .ask trivial fun answer => ?_
  cases answer with
  | error message => exact .throw _
  | ok found =>
    cases found with
    | none => exact .done false
    | some found =>
      obtain ⟨row, instanceName⟩ := found
      have read : (⟨.selectDispatch commandId, .ok (some (row, instanceName))⟩ : Exchange CommandAnswer) ∈
          said ++ [⟨.selectDispatch commandId, .ok (some (row, instanceName))⟩] := by simp
      have addressed : ∀ later : List (Exchange CommandAnswer), Addressed workerId
          (said ++ [⟨.selectDispatch commandId, .ok (some (row, instanceName))⟩] ++ later) row.workerId := fun later =>
        ⟨commandId, row, instanceName, listed.append.append, List.mem_append_left _ read, rfl⟩
      refine .ite (fun _ => .done false) fun _ => Obeys.bind ?_ fun expired later =>
        .ite (fun _ => (obeys_expiring listed.append.append).bind fun _ _ => .done false) fun _ => ?_
      · unfold hasExpired
        split
        · exact .done false
        · exact .call trivial fun now => .done _
      · refine .call trivial fun live : Bool => .ite (fun _ => .call trivial fun now : Int => ?_) fun _ => .done false
        dsimp only
        split
        · exact .throw _
        · refine .call ?_ fun _ => .call trivial fun at_ => .ask listed.append.append.append.append.append.append
            fun answer => (obeys_orFail answer).bind fun _ _ => .done true
          have sends := addressed (later ++ [⟨.isLive row.workerId, live⟩] ++ [⟨.readClock, now⟩])
          simp only [← List.append_assoc] at sends
          exact sends

theorem obeys_dispatchAll {ids : List JsString} (each : ∀ id ∈ ids, Listed workerId said id) :
    Obeys (CommandRule workerId) said (dispatchEach config ids) := by
  induction ids generalizing said with
  | nil => exact .done _
  | cons id rest ih =>
    refine (obeys_dispatchListed (each id List.mem_cons_self)).bind fun sent later => ?_
    exact (ih fun other member => (each other (List.mem_cons_of_mem _ member)).append).bind fun _ _ => .done _

/-- What waits for a worker and is sent is addressed to that worker. -/
theorem obeys_dispatchPending : Obeys (CommandRule workerId) said (dispatchPendingFor config workerId) := by
  refine .ask trivial fun answer => ?_
  cases answer with
  | error message => exact .throw _
  | ok ids => exact obeys_dispatchAll fun id member => ⟨ids, by simp, member⟩

theorem obeys_settle {params : ResultParams} (mine : params.workerId = workerId) :
    Obeys (CommandRule workerId) said (recordResult params) := by
  refine .ask trivial fun answer => ?_
  cases answer with
  | error message => exact .throw _
  | ok found =>
    cases found with
    | none => exact .done _
    | some row =>
      refine .call trivial fun at_ => .ask mine fun answer => (obeys_orFail answer).bind fun _ _ => ?_
      refine .ask trivial fun answer => (obeys_orFail answer).bind fun _ _ => ?_
      cases row.issuedBy with
      | none => exact .done _
      | some issuedBy => exact .ask trivial fun answer => (obeys_orFail answer).bind fun _ _ => .done _

end Commands

/-! ## The hub -/

section Hub
variable {config : HubConfig} {worker : AuthenticatedWorker} {remoteAddress : JsString}
  {said later : List (Exchange HubAnswer)} {session : HubSession}

theorem Told.extend {workerId instanceId : JsString} (told : Told workerId said instanceId) (longer : said <+: later) :
    Told workerId later instanceId := by
  obtain ⟨instanceName, heard⟩ := told
  exact ⟨instanceName, longer.subset heard⟩

/-- The ids a session keeps are ones that it was told. -/
def Gathered (workerId : JsString) (said : List (Exchange HubAnswer)) (session : HubSession) : Prop :=
  ∀ entry ∈ session.instanceIds, Told workerId said entry.2

theorem Gathered.extend {workerId : JsString} (gathered : Gathered workerId said session) (longer : said <+: later) :
    Gathered workerId later session :=
  fun entry member => (gathered entry member).extend longer

theorem Gathered.get {workerId name id : JsString} (gathered : Gathered workerId said session)
    (found : session.instanceIds.get name = some id) : Told workerId said id :=
  gathered (name, id) (property_mem found)

theorem Gathered.declareInstances {workerId : JsString} {ids : List (JsString × JsString)}
    (gathered : Gathered workerId said session) (each : ∀ entry ∈ ids, Told workerId said entry.2) :
    Gathered workerId said (session.declareInstances ids) := by
  have folded : ∀ map : JsMap JsString, (∀ entry ∈ map, Told workerId said entry.2) →
      ∀ entry ∈ ids.foldl (fun (map : JsMap JsString) id => map.set id.1 id.2) map, Told workerId said entry.2 := by
    clear gathered
    induction ids with
    | nil => exact fun map told => told
    | cons first rest ih =>
      intro map told
      refine ih (fun entry member => each entry (List.mem_cons_of_mem _ member)) _ fun entry member => ?_
      rcases JsMap.mem_set member with rfl | ⟨old, -⟩
      · exact each first List.mem_cons_self
      · exact told entry old
  exact folded session.instanceIds gathered

/-- A part that is done for its effect. -/
theorem meets_commands {α : Type} {program : Service α} {workerId : JsString}
    (obeys : ∀ said, Obeys (CommandRule workerId) said program) :
    Meets (HubRule workerId) (fun later _ => said <+: later) said (onCommands program) :=
  (Meets.inside ofCommand (fun _ _ => rfl) (fun _ _ keeps => keeps) (obeys _).meets).imp fun _ _ ended => ended.1

theorem meets_auditing (workerId actor action : JsString) (target : Option JsString) (remoteAddress : JsString) :
    Meets (HubRule workerId) (fun later _ => said <+: later) said (audit actor action target remoteAddress) := by
  refine .call trivial fun answer => ?_
  cases answer with
  | error message => exact .throw ()
  | ok _ => exact .done (List.prefix_append _ _)

theorem meets_upserting (workerId : JsString) (names : List JsString) :
    Meets (HubRule workerId) (fun later ids => said <+: later ∧ ∀ entry ∈ ids, Told workerId later entry.2) said
      (upsertInstances workerId names) := by
  induction names generalizing said with
  | nil => exact .done ⟨List.prefix_rfl, by simp⟩
  | cons name rest ih =>
    refine .ask rfl fun answer => ?_
    cases answer with
    | error text => exact .throw ()
    | ok id =>
      have told : Told workerId (said ++ [⟨.upsertInstance workerId name, .ok id⟩]) id := ⟨name, by simp⟩
      refine .ask told fun answer => ?_
      cases answer with
      | error text => exact .throw ()
      | ok _ =>
        refine ih.bind fun later ids ⟨longer, each⟩ => .done ⟨?_, ?_⟩
        · exact (List.prefix_append _ _).trans ((List.prefix_append _ _).trans longer)
        · intro entry member
          rcases List.mem_cons.mp member with rfl | other
          · exact told.extend ((List.prefix_append _ _).trans longer)
          · exact each entry other

theorem meets_beating (names : List JsString) (gathered : Gathered worker.workerId said session) :
    Meets (HubRule worker.workerId) (Gathered worker.workerId) said (handleHeartbeat worker session names) := by
  refine .call rfl fun answer => ?_
  cases answer with
  | error text => exact .done (gathered.extend (List.prefix_append _ _))
  | ok _ =>
    have still := gathered.extend (List.prefix_append said [⟨.touchWorker worker.workerId, .ok ()⟩])
    refine meets_proceed (meets_upserting worker.workerId names) (fun later longer => still.extend longer)
      fun later ids ⟨longer, each⟩ => .done ((still.extend longer).declareInstances each)

theorem meets_publishing (hostName publicKey : JsString) :
    Meets (HubRule worker.workerId) (fun later _ => said <+: later) said
      (publishCredentialKey worker remoteAddress hostName publicKey) := by
  unfold publishCredentialKey
  split
  · refine .ask rfl fun answer => ?_
    cases answer with
    | error text => exact .done (List.prefix_append _ _)
    | ok changed =>
      cases changed with
      | false => exact .done (List.prefix_append _ _)
      | true =>
        refine .ask trivial fun answer => ?_
        cases answer <;> exact .done ((List.prefix_append _ _).trans (List.prefix_append _ _))
  · exact .done List.prefix_rfl

theorem meets_greeting (hello : HubHello) (gathered : Gathered worker.workerId said session) :
    Meets (HubRule worker.workerId) (Gathered worker.workerId) said
      (handleHello config worker remoteAddress session hello) := by
  unfold handleHello
  split
  · exact meets_proceed (meets_auditing _ _ _ _ _) (fun later longer => gathered.extend longer)
      fun later _ longer => .done (gathered.extend longer)
  · refine .call rfl fun answer => ?_
    cases answer with
    | error text => exact .done (gathered.extend (List.prefix_append _ _))
    | ok row =>
      have named : Gathered worker.workerId (said ++ [⟨.recordWorkerHello worker.workerId hello.workerVersion
          hello.maxCapability remoteAddress, .ok row⟩]) { session with hostName := row.hostName } :=
        (show Gathered worker.workerId said { session with hostName := row.hostName } from gathered).extend
          (List.prefix_append _ _)
      refine meets_proceed (meets_publishing _ _) (fun later longer => named.extend longer) fun later _ published => ?_
      refine meets_proceed (meets_upserting _ _) (fun later longer => (named.extend published).extend longer)
        fun later ids ⟨upserted, each⟩ => ?_
      have known := ((named.extend published).extend upserted).declareInstances each
      dsimp only
      cases capabilitiesUnder row.capabilities hello.maxCapability with
      | error message => exact .done known
      | ok capabilities =>
        refine .call trivial fun superseded => ?_
        have declared := known.extend (List.prefix_append later [⟨.register worker.workerId, superseded⟩])
        refine meets_proceed (meets_auditing _ _ _ _ _) (fun later longer => declared.extend longer)
          fun later _ audited => .call rfl fun _ => .call rfl fun answer => ?_
        have pushed := ((declared.extend audited).extend (List.prefix_append _ _)).extend
          (List.prefix_append (later ++ [⟨.sendHelloAck worker.workerId capabilities, ()⟩])
            [⟨.pushInstanceConfigs worker.workerId, answer⟩])
        cases answer with
        | error text => exact .done pushed
        | ok _ =>
          exact (meets_commands fun _ => obeys_dispatchPending).bind fun later _ longer => .done (pushed.extend longer)

/-- What is committed of a snapshot is committed for the instance of its chunk. -/
theorem commit_instance {session : SnapshotSession} {arrival : SnapshotSession.Event} {commit : SnapshotSession.Commit}
    (committed : (session.on arrival).2 = some commit) :
    ∃ name, session.instanceIds name = some commit.instanceId := by
  cases arrival with
  | declared ids => cases committed
  | chunk arrival =>
    unfold SnapshotSession.on at committed
    cases found : session.instanceIds arrival.snapshot.instanceName with
    | none =>
      simp only [found] at committed
      cases committed
    | some instanceId =>
      simp only [found, Option.map_eq_some_iff] at committed
      obtain ⟨acc, -, rfl⟩ := committed
      exact ⟨_, found⟩

private theorem obeys_committing (crypto : Crypto) {instanceId : JsString} (jobs : List JobDefinitionBlob)
    (said : List (Exchange JobAnswer)) :
    Obeys (fun _ statement =>
      JobCall.KeepsTo (· = instanceId) statement) said (commitSnapshot crypto instanceId jobs) := by
  refine Obeys.bind ?_ fun _ later => .call rfl fun answer => ?_
  · induction jobs generalizing said with
    | nil => exact .done ()
    | cons blob rest ih =>
      refine Obeys.bind (.ask rfl fun answer => ?_) fun _ later => ih _
      cases answer with
      | error text => exact .throw text
      | ok result => exact .done ()
  · cases answer with
    | error text => exact .throw text
    | ok _ => exact .done ()

theorem meets_snapshot (snapshot : Snapshot) (gathered : Gathered worker.workerId said session) :
    Meets (HubRule worker.workerId) (Gathered worker.workerId) said (handleSnapshot config session snapshot) := by
  unfold handleSnapshot
  split
  · exact .done gathered
  · refine .call trivial fun sweptAt => .call trivial fun startedAt => ?_
    have still := (gathered.extend (List.prefix_append said [⟨.readClock, sweptAt⟩])).extend
      (List.prefix_append _ [⟨.readClock, startedAt⟩])
    dsimp only
    split
    · exact .done still
    · rename_i commit committed
      obtain ⟨name, found⟩ := commit_instance committed
      have told := still.get found
      have recorded : Meets (HubRule worker.workerId)
          (fun later _ => said ++ [⟨.readClock, sweptAt⟩] ++ [⟨.readClock, startedAt⟩] <+: later)
          (said ++ [⟨.readClock, sweptAt⟩] ++ [⟨.readClock, startedAt⟩])
          (onJobs (commitSnapshot config.runtime.crypto commit.instanceId commit.jobs)) := by
        refine Meets.within (obeys_committing _ _ _) List.prefix_rfl (fun later statement keeps longer => ?_)
          fun _ _ _ longer => longer.trans (List.prefix_append _ _)
        have each : ∀ id, id = commit.instanceId → Told worker.workerId later id := fun id same =>
          same ▸ told.extend longer
        cases statement <;> exact each _ keeps
      exact recorded.bind fun later _ longer => .done (still.extend longer)

theorem meets_delta (delta : DefinitionDelta) (gathered : Gathered worker.workerId said session) :
    Meets (HubRule worker.workerId) (Gathered worker.workerId) said (handleDefinition config session delta) := by
  unfold handleDefinition
  split
  · rename_i instanceId job declared isJob
    split
    · refine .ask (gathered.get declared) fun answer => ?_
      cases answer <;> exact .done (gathered.extend (List.prefix_append _ _))
    · refine .ask (gathered.get declared) fun answer => ?_
      cases answer <;> exact .done (gathered.extend (List.prefix_append _ _))
  · exact .done gathered

theorem obeys_ending (session : HubSession) :
    Obeys (HubRule worker.workerId) said (teardown worker remoteAddress session) := by
  refine .ite (fun _ => .call trivial fun _ => .ask rfl fun answer => ?_) fun _ => .done ()
  cases answer with
  | error text => exact .throw ()
  | ok _ =>
    refine .call trivial fun answer => ?_
    cases answer with
    | error text => exact .throw ()
    | ok _ => exact .done ()

end Hub

/-! ## The stream -/

section Stream
variable {config : StreamConfig} {worker : StreamWorker} {remoteAddress : JsString}
  {said later : List (Exchange StreamAnswer)} {session : HubSession}

/-- The ids a session keeps are ones that it was told. -/
abbrev Holding (worker : StreamWorker) (said : List (Exchange StreamAnswer)) (session : HubSession) : Prop :=
  Gathered worker.workerId (said.filterMap ofHub) session

theorem prefix_ofHub (longer : said <+: later) : said.filterMap ofHub <+: later.filterMap ofHub :=
  List.IsPrefix.filterMap ofHub longer

theorem Holding.append {later : List (Exchange StreamAnswer)} (holding : Holding worker said session) :
    Holding worker (said ++ later) session :=
  holding.extend (prefix_ofHub (List.prefix_append _ _))

section Parts
variable {workerId : JsString}

/-- A part in the hub. -/
theorem obeys_inHub {α : Type} {program : Hub α} (obeys : ∀ said, Obeys (HubRule workerId) said program) :
    Obeys (StreamRule workerId) said (onHub program) :=
  (Meets.inside ofHub (fun _ _ => rfl) (fun _ _ keeps => keeps) (obeys _).meets).obeys

/-- Alerts touch nothing that belongs to a worker. -/
theorem obeys_alerts {α : Type} (program : NotificationProgram α) :
    Obeys (StreamRule workerId) said (onNotifications program) := by
  have run : Meets (StreamRule workerId) (fun _ _ => True) said (onNotifications program) :=
    Meets.within (obeys_any program) trivial (fun _ _ _ _ => trivial) fun _ _ _ _ => trivial
  exact run.obeys

theorem obeys_each {Item : Type} {items : List Item} {body : Item → Stream PUnit}
    (each : ∀ item ∈ items, ∀ later, Obeys (StreamRule workerId) (said ++ later) (body item)) :
    Obeys (StreamRule workerId) said (items.forM body) := by
  induction items generalizing said with
  | nil => exact .done _
  | cons item rest ih =>
    rw [List.forM_eq_forM, List.forM_cons]
    have first := each item List.mem_cons_self []
    rw [List.append_nil] at first
    refine first.bind fun _ later => ih fun other member more => ?_
    rw [List.append_assoc]
    exact each other (List.mem_cons_of_mem _ member) _

end Parts

/-- The ingestion of a batch keeps to its instance. -/
theorem within_ingestHistory (instanceId : JsString) (rows : List HistoryRow) :
    Within (HistoryCall.KeepsTo (· = instanceId)) (ingestHistory instanceId rows) := by
  rcases ingestHistory_cases instanceId rows with unchanged | ⟨message, thrown⟩ | stored
  · rw [unchanged]
    exact .call trivial fun selected : Except JsString Int => .bind (within_orThrow selected) fun _ => .done _
  · rw [thrown]
    exact .throw _
  · rw [stored]
    refine .call (fun value member => ?_) fun returned : Except JsString (List JobHistoryRow) =>
      .bind (within_orThrow returned) fun inserted => .call rfl fun raised : Except JsString Unit =>
        .bind (within_orThrow raised) fun _ => .bind (.forM fun jobUuid _ => ?_) fun _ => .done _
    · obtain ⟨row, -, isValue⟩ := List.mem_filterMap.mp member
      unfold historyValue at isValue
      rcases time : fromTimestamp row.runDatetime with _ | _ | runDatetime <;> rw [time] at isValue <;> cases isValue
      rfl
    · refine .call trivial fun selected : Except JsString (Option LastRun) =>
        .bind (within_orThrow selected) fun found => ?_
      cases found with
      | none => exact .done _
      | some latest => exact .call rfl fun updated : Except JsString Unit => within_orThrow updated

theorem obeys_ingesting {workerId instanceId : JsString} (rows : List HistoryRow)
    (told : Told workerId (said.filterMap ofHub) instanceId) :
    Obeys (StreamRule workerId) said (onHistory (ingestHistory instanceId rows)) := by
  have run : Meets (StreamRule workerId) (fun later _ => said <+: later) said
      (onHistory (ingestHistory instanceId rows)) :=
    Meets.within (within_ingestHistory instanceId rows).obeys List.prefix_rfl
      (fun later call keeps longer => HistoryCall.KeepsTo.mono keeps fun id same =>
        same ▸ told.extend (prefix_ofHub longer))
      fun _ _ _ longer => longer.trans (List.prefix_append _ _)
  exact run.obeys

theorem obeys_handleHistory (batch : HistoryBatchMessage) (holding : Holding worker said session) :
    Obeys (StreamRule worker.workerId) said (handleHistory config worker session batch) := by
  unfold handleHistory
  split
  · exact .done ()
  · rename_i instanceId found
    have told := holding.get found
    refine .ask trivial fun answer => (obeys_orThrow answer).bind fun scrubConfig _ =>
      (obeys_orThrow _).bind fun rows _ => Obeys.bind (obeys_ingesting rows ?_) fun stored _ =>
        (obeys_orThrow stored).bind fun result _ => (obeys_alerts _).bind fun _ _ => .done ()
    refine told.extend (prefix_ofHub ?_)
    simp only [List.append_assoc]
    exact List.prefix_append _ _

theorem obeys_handleActivity (update : ActivityUpdate) (holding : Holding worker said session) :
    Obeys (StreamRule worker.workerId) said (handleActivity session update) := by
  unfold handleActivity
  split
  · exact .done ()
  · rename_i instanceId found
    refine obeys_each fun row _ later => (obeys_orThrow _).bind fun activity _ => ?_
    have there : Holding worker (said ++ later) session := holding.append
    have told := there.get found
    refine .ask ?_ fun answer => (obeys_orThrow answer).bind fun _ _ => ?_
    · exact told.extend (prefix_ofHub (List.prefix_append _ _))
    split
    · exact .done _
    · refine .call ?_ fun answer => obeys_orThrow answer
      simp only [List.append_assoc]
      exact (holding.append).get found

/-- Every row of the log is stored for the instance of the batch. -/
theorem agentLogValues_instanceId {config : StreamConfig} {instanceId : JsString} {rows : List AgentLogRow}
    {values : List AgentLogEntry} (bound : (rows.filterMap (agentLogValue config instanceId)).mapM id = .ok values) :
    ∀ value ∈ values, value.instanceId = instanceId := by
  intro value member
  have stored : Except.ok value ∈ rows.filterMap (agentLogValue config instanceId) := by
    rw [of_mapM_ok bound]
    exact List.mem_map_of_mem member
  obtain ⟨row, -, isValue⟩ := List.mem_filterMap.mp stored
  unfold agentLogValue at isValue
  rcases time : fromTimestamp row.loggedAt with _ | _ | loggedAt <;> rw [time] at isValue <;> cases isValue
  rfl

theorem obeys_handleAgentLog (batch : AgentLogBatch) (holding : Holding worker said session) :
    Obeys (StreamRule worker.workerId) said (handleAgentLog config worker session batch) := by
  unfold handleAgentLog
  split
  · exact .done ()
  · rename_i instanceId found
    refine .ask trivial fun answer => (obeys_orThrow answer).bind fun scrubConfig _ =>
      (obeys_orThrow _).bind fun kept _ => ?_
    unfold ingestAgentLog
    cases bound : (kept.filterMap (agentLogValue config instanceId)).mapM id with
    | error message => exact .throw message
    | ok values =>
      cases values with
      | nil => exact .done ()
      | cons first rest =>
        have mine := agentLogValues_instanceId bound
        refine .ask (fun value member => ?_) fun answer => (obeys_orThrow answer).bind fun _ _ =>
          .call ?_ fun answer => obeys_orThrow answer
        · rw [mine value member]
          simp only [List.append_assoc]
          exact (holding.append).get found
        · simp only [List.append_assoc]
          exact (holding.append).get found

theorem obeys_recordInstanceConfigStatus (results : List InstanceConfigResult) :
    Obeys (StreamRule worker.workerId) said (recordInstanceConfigStatus worker results) :=
  obeys_each fun _ _ _ => .call rfl fun answer => obeys_orThrow answer

/-- The job that results is recorded on an instance of the session. -/
theorem obeys_recordResultingJob {heard : List (Exchange HubAnswer)} (result : CommandResult)
    (gathered : Gathered worker.workerId heard session) :
    Obeys (HubRule worker.workerId) heard (recordResultingJob config worker session result) := by
  unfold recordResultingJob
  split
  · exact .done ()
  · refine .ask trivial fun answer => ?_
    cases answer with
    | error text => exact .throw ()
    | ok found =>
      cases found with
      | none => exact .done ()
      | some command =>
        refine .ite (fun member => ?_) fun _ => .done ()
        obtain ⟨entry, there, same⟩ := List.mem_map.mp member
        refine .ask ?_ fun answer => ?_
        · have told := (gathered entry there).extend (List.prefix_append heard
            [⟨.command (.selectForWorker result.commandId worker.workerId), .ok (some command)⟩])
          rw [same] at told
          exact told
        · cases answer with
          | error text => exact .throw ()
          | ok _ => exact .done ()

theorem obeys_alertFailure {workerId : JsString} (result : CommandResult) (settled : Option SettledCommand) :
    Obeys (StreamRule workerId) said (alertFailure config result settled) := by
  cases settled with
  | none => exact .done ()
  | some command =>
    refine .ite (fun _ => .done ()) fun _ => Obeys.bind (Obeys.attempt ?_) fun _ _ => .done ()
    refine .ask trivial fun answer => (obeys_orThrow answer).bind fun found _ => .call trivial fun occurredAt => ?_
    exact (obeys_alerts _).bind fun _ _ => .done ()

theorem obeys_handleResult (result : CommandResult) (holding : Holding worker said session) :
    Obeys (StreamRule worker.workerId) said (handleResult config worker session result) := by
  unfold handleResult
  refine Obeys.bind (obeys_inHub fun heard => (meets_commands fun said =>
    (obeys_settle rfl : Obeys (CommandRule worker.workerId) said _)).obeys) fun settled later => ?_
  split
  · rename_i settled
    refine (obeys_alertFailure result settled).bind fun _ more => Obeys.bind ?_ fun _ _ => .done ()
    exact (Meets.inside ofHub (fun _ _ => rfl) (fun _ _ keeps => keeps)
      (obeys_recordResultingJob result holding.append.append).meets).obeys
  · exact .done ()

theorem obeys_auditRenewal (action : JsString) :
    Obeys (StreamRule worker.workerId) said (auditRenewal worker remoteAddress action) :=
  .call trivial fun answer => obeys_orThrow answer

theorem obeys_renew (csrPem : JsString) :
    Obeys (StreamRule worker.workerId) said (renew config worker remoteAddress csrPem) := by
  refine Obeys.bind ?_ fun issued _ => (obeys_auditRenewal _).bind fun _ _ => .call rfl fun _ => .done ()
  refine .ite (fun _ => .throw _) fun _ => .ite (fun _ => .throw _) fun _ => .call trivial fun answer => ?_
  cases answer with
  | error message => exact .throw _
  | ok issued => exact .ask rfl fun answer => (obeys_orThrow answer).bind fun _ _ => .done issued

theorem obeys_handleCertificateRenewal (csrPem : JsString) :
    Obeys (StreamRule worker.workerId) said (handleCertificateRenewal config worker remoteAddress csrPem) := by
  refine .ite (fun _ => (obeys_auditRenewal _).attempt.bind fun _ _ => .call rfl fun _ => .done ()) fun _ =>
    (obeys_renew csrPem).attempt.bind fun renewed _ => ?_
  cases renewed with
  | ok _ => exact .done ()
  | error message => exact (obeys_auditRenewal _).attempt.bind fun _ _ => .call rfl fun _ => .done ()

theorem meets_inHub {message : HubMessage} (holding : Holding worker said session)
    (meets : Meets (HubRule worker.workerId) (Gathered worker.workerId) (said.filterMap ofHub)
      (handleMessage config.hub worker.toAuthenticatedWorker remoteAddress session message)) :
    Meets (StreamRule worker.workerId) (Holding worker) said (inHub config worker remoteAddress session message) := by
  refine (Meets.inside ofHub (fun _ _ => rfl) (fun _ _ keeps => keeps) meets).bind
    fun later result ⟨longer, ended⟩ => ?_
  cases result with
  | error _ => exact .done (holding.extend (prefix_ofHub longer))
  | ok after => exact .done (ended after rfl)

theorem meets_logged {program : Stream Unit} (holding : Holding worker said session)
    (obeys : Obeys (StreamRule worker.workerId) said program) :
    Meets (StreamRule worker.workerId) (Holding worker) said (logged session program) :=
  obeys.attempt.meets.bind fun _ _ longer => .done (holding.extend (prefix_ofHub longer))

/-- A message of any kind. -/
theorem meets_handleStreamMessage (message : StreamMessage) (holding : Holding worker said session) :
    Meets (StreamRule worker.workerId) (Holding worker) said
      (handleStreamMessage config worker remoteAddress session message) := by
  cases message with
  | hello hostName hello => exact meets_inHub holding (meets_greeting hello holding)
  | snapshot snapshot => exact meets_inHub holding (meets_snapshot snapshot holding)
  | definition delta => exact meets_inHub holding (meets_delta delta holding)
  | history batch => exact meets_logged holding (obeys_handleHistory batch holding)
  | activity update => exact meets_logged holding (obeys_handleActivity update holding)
  | agentLog batch => exact meets_logged holding (obeys_handleAgentLog batch holding)
  | commandResult result => exact meets_logged holding (obeys_handleResult result holding)
  | heartbeat instances => exact meets_inHub holding (meets_beating instances holding)
  | instanceConfigStatus results => exact meets_logged holding (obeys_recordInstanceConfigStatus results)
  | certificateRenewal csrPem => exact meets_logged holding (obeys_handleCertificateRenewal csrPem)

theorem meets_handleStream (left : Nat) (holding : Holding worker said session) :
    Meets (StreamRule worker.workerId) (Holding worker) said
      (handleStream config worker remoteAddress session left) := by
  induction left generalizing said session with
  | zero => exact .done holding
  | succ left ih =>
    exact .call trivial fun message =>
      (meets_handleStreamMessage message holding.append).bind fun later session there =>
      ih there

/-- A session goes by what it was told of its worker. -/
theorem obeys_streamSession (count : Nat) :
    Obeys (StreamRule worker.workerId) [] (streamSession config worker remoteAddress count) := by
  refine (meets_handleStream count ?_).obeys.bind fun session later =>
    (obeys_inHub fun heard => obeys_ending session).bind fun _ _ => .done ()
  intro entry member
  cases member

end Stream

end RemoteSqlAgent
