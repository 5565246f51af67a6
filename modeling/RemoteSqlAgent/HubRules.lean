import RemoteSqlAgent.Hub

/-! What the sessions record, and on whose word. Whatever is recorded is what the
message being handled says: of an instance that the session has upserted, or of
the command that the session has looked up. -/
namespace RemoteSqlAgent
open Js CallProgram

/-- The message that an exchange received. -/
def received : Exchange HubAnswer → Option HubMessage
  | ⟨.receive, message⟩ => some message
  | _ => none

/-- The call on commands that an exchange is. -/
def ofCommand : Exchange HubAnswer → Option (Exchange CommandAnswer)
  | ⟨.command statement, answer⟩ => some ⟨statement, answer⟩
  | _ => none

/-- The message being handled. -/
def lastMessage (said : List (Exchange HubAnswer)) : Option HubMessage := (said.filterMap received).getLast?

/-- The session was told the id of an instance of the worker. -/
def Upserted (worker : AuthenticatedWorker) (said : List (Exchange HubAnswer)) (instanceName id : JsString) : Prop :=
  ⟨.upsertInstance worker.workerId instanceName, .ok id⟩ ∈ said

/-- The session looked up a command of the worker. -/
def LookedUp (worker : AuthenticatedWorker) (said : List (Exchange HubAnswer)) (commandId : JsString)
    (command : CommandRow) : Prop :=
  ⟨.command (.selectForWorker commandId worker.workerId), .ok (some command)⟩ ∈ said

/-- What a message makes the session record. -/
def Records (crypto : Crypto) (worker : AuthenticatedWorker) (said : List (Exchange HubAnswer))
    (input : RecordVersionInput) : HubMessage → Prop
  | .snapshot _ => ∃ instanceId blob, input = snapshotInput crypto instanceId blob
  | .definition delta => ∃ job instanceId, delta.job = some job ∧ delta.deleted = false ∧
    Upserted worker said delta.instanceName instanceId ∧ input = deltaInput crypto instanceId delta job
  | .commandResult result => ∃ job command, result.resultingJob = some job ∧
    LookedUp worker said result.commandId command ∧ input = resultInput crypto command result job
  | _ => False

/-- What an operation goes by when it writes jobs. Only sessions do, and they record
what their messages say. -/
def HubFollows (config : HubConfig) (operation : HubOperation) (said : List (Exchange HubAnswer)) : HubCall → Prop
  | .job (.recordJobVersion input) => ∃ number worker remoteAddress count message,
    operation = .session number worker remoteAddress count ∧ lastMessage said = some message ∧
      Records config.runtime.crypto worker said input message
  | .job _ => ∃ number worker remoteAddress count, operation = .session number worker remoteAddress count
  | _ => True

/-- The ids a session keeps are ones that it was told. -/
def Known (worker : AuthenticatedWorker) (said : List (Exchange HubAnswer)) (session : HubSession) : Prop :=
  ∀ name id, session.instanceIds.get name = some id → Upserted worker said name id

section
variable {config : HubConfig} {operation : HubOperation} {worker : AuthenticatedWorker} {remoteAddress : JsString}
  {said more : List (Exchange HubAnswer)} {session : HubSession} {message : HubMessage}

theorem Known.extend (known : Known worker said session) {later : List (Exchange HubAnswer)} (longer : said <+: later) :
    Known worker later session :=
  fun name id found => longer.subset (known name id found)

theorem Known.append (known : Known worker said session) : Known worker (said ++ more) session :=
  known.extend (List.prefix_append said more)

theorem lastMessage_concat (said : List (Exchange HubAnswer)) (exchange : Exchange HubAnswer) :
    lastMessage (said ++ [exchange]) = (received exchange).or (lastMessage said) := by
  unfold lastMessage
  rw [List.filterMap_append]
  cases read : received exchange with
  | none => simp [List.filterMap_cons_none read]
  | some message => simp [List.filterMap_cons_some read]

/-- A session in the middle of a message. -/
structure HubHandling (worker : AuthenticatedWorker) (message : HubMessage) (said : List (Exchange HubAnswer))
    (session : HubSession) : Prop where
  last : lastMessage said = some message
  known : Known worker said session

/-- Whatever else is called, the message is the same. -/
theorem HubHandling.concat (handling : HubHandling worker message said session) (exchange : Exchange HubAnswer)
    (other : received exchange = none) : HubHandling worker message (said ++ [exchange]) session where
  last := by rw [lastMessage_concat, other, Option.none_or, handling.last]
  known := handling.known.append

/-! ## Parts of handlers -/

theorem meets_orLog {α : Type} {rule : List (Exchange HubAnswer) → HubCall → Prop}
    {ends : List (Exchange HubAnswer) → α → Prop} (answer : Except JsString α)
    (holds : ∀ value, answer = .ok value → ends said value) : Meets rule ends said (orLog answer) := by
  cases answer with
  | error text => exact .throw ()
  | ok value => exact .done (holds value rfl)

/-- Going on, the session is as it was if the handling stops here. -/
theorem meets_proceed {α : Type} {rule : List (Exchange HubAnswer) → HubCall → Prop} {program : Hub α}
    {next : α → Hub HubSession} {ends : List (Exchange HubAnswer) → α → Prop}
    {outcome : List (Exchange HubAnswer) → HubSession → Prop} (first : Meets rule ends said program)
    (stopped : ∀ later, said <+: later → outcome later session)
    (second : ∀ later value, ends later value → Meets rule outcome later (next value)) :
    Meets rule outcome said (proceed program session next) := by
  have caught : Meets rule (fun later result =>
      (∀ error, result = .error error → outcome later session) ∧
        ∀ value, result = .ok value → ends later value) said program.attempt := by
    refine first.attempt (fun later value holds => ⟨?_, ?_⟩) fun later error longer => ⟨?_, ?_⟩
    · intro error same
      cases same
    · intro other same
      cases same
      exact holds
    · intro other same
      exact stopped later longer
    · intro value same
      cases same
  refine caught.bind fun later result holds => ?_
  cases result with
  | error error => exact .done (holds.1 error rfl)
  | ok value => exact second later value (holds.2 value rfl)

theorem meets_audit (actor action : JsString) (target : Option JsString) (remoteAddress : JsString)
    (handling : HubHandling worker message said session) :
    Meets (HubFollows config operation) (fun later _ => HubHandling worker message later session) said
      (audit actor action target remoteAddress) :=
  .call trivial fun answer => meets_orLog answer fun _ _ => handling.concat _ rfl

theorem meets_onCommands {α : Type} (program : Service α) (handling : HubHandling worker message said session) :
    Meets (HubFollows config operation) (fun later _ => HubHandling worker message later session) said
      (onCommands program) :=
  Meets.within (obeys_any program) handling (fun _ _ _ _ => trivial) fun _ _ _ there => there.concat _ rfl

theorem meets_upsertInstances (names : List JsString) (handling : HubHandling worker message said session) :
    Meets (HubFollows config operation) (fun later ids => HubHandling worker message later session ∧
      ∀ entry ∈ ids, Upserted worker later entry.1 entry.2) said (upsertInstances worker.workerId names) := by
  induction names generalizing said with
  | nil => exact .done ⟨handling, by simp⟩
  | cons name rest ih =>
    refine .ask trivial fun answer => ?_
    cases answer with
    | error text => exact .throw ()
    | ok id =>
      have handled := handling.concat ⟨.upsertInstance worker.workerId name, .ok id⟩ rfl
      have here : Upserted worker (said ++ [⟨.upsertInstance worker.workerId name, .ok id⟩]) name id := by
        simp [Upserted]
      refine .ask trivial fun answer => ?_
      cases answer with
      | error text => exact .throw ()
      | ok _ =>
        refine (ih (handled.concat _ rfl)).longer.bind fun later ids ⟨longer, holds, each⟩ => .done ⟨holds, ?_⟩
        intro entry member
        rcases List.mem_cons.mp member with rfl | other
        · exact longer.subset (List.mem_append_left _ here)
        · exact each entry other

theorem Known.declareInstances (known : Known worker said session) {ids : List (JsString × JsString)}
    (each : ∀ entry ∈ ids, Upserted worker said entry.1 entry.2) :
    Known worker said (session.declareInstances ids) := by
  have folded : ∀ map : JsMap JsString, (∀ name id, map.get name = some id → Upserted worker said name id) →
      ∀ name id, (ids.foldl (fun (map : JsMap JsString) id => map.set id.1 id.2) map).get name = some id →
        Upserted worker said name id := by
    clear known
    induction ids with
    | nil => exact fun map known => known
    | cons entry rest ih =>
      intro map known
      refine ih (fun other member => each other (List.mem_cons_of_mem _ member)) _ fun name id found => ?_
      rw [JsMap.get_set] at found
      split at found
      · rename_i same
        cases found
        exact same ▸ each entry List.mem_cons_self
      · exact known name id found
  exact folded session.instanceIds known

/-! ## Handlers -/

theorem meets_handleHeartbeat (names : List JsString) (handling : HubHandling worker message said session) :
    Meets (HubFollows config operation) (Known worker) said (handleHeartbeat worker session names) := by
  refine .call trivial fun answer => ?_
  cases answer with
  | error text => exact .done handling.known.append
  | ok _ =>
    refine meets_proceed (meets_upsertInstances names (handling.concat _ rfl))
      (fun later longer => handling.known.append.extend longer) fun later ids ⟨there, each⟩ => ?_
    exact .done (there.known.declareInstances each)

theorem meets_publishCredentialKey (hostName publicKey : JsString)
    (handling : HubHandling worker message said session) :
    Meets (HubFollows config operation) (fun later _ => HubHandling worker message later session) said
      (publishCredentialKey worker remoteAddress hostName publicKey) := by
  unfold publishCredentialKey
  split
  · refine .ask trivial fun answer => ?_
    have handled := handling.concat ⟨.recordCredentialKey worker.workerId publicKey, answer⟩ rfl
    cases answer with
    | error text => exact .done handled
    | ok changed =>
      cases changed with
      | false => exact .done handled
      | true => exact .ask trivial fun answer => by cases answer <;> exact .done (handled.concat _ rfl)
  · exact .done handling

theorem meets_handleHello (hello : HubHello) (handling : HubHandling worker message said session) :
    Meets (HubFollows config operation) (Known worker) said
      (handleHello config worker remoteAddress session hello) := by
  unfold handleHello
  split
  · exact meets_proceed (meets_audit _ _ _ _ handling) (fun later longer => handling.known.extend longer)
      fun later _ there => .done there.known
  · refine .call trivial fun answer => ?_
    have handled := handling.concat ⟨.recordWorkerHello _ _ _ _, answer⟩ rfl
    cases answer with
    | error text => exact .done handled.known
    | ok row =>
      have named : HubHandling worker message _ { session with hostName := row.hostName } :=
        ⟨handled.last, handled.known⟩
      refine meets_proceed (meets_publishCredentialKey _ _ named) (fun later longer => named.known.extend longer)
        fun later _ there => ?_
      refine meets_proceed (meets_upsertInstances _ there) (fun later longer => there.known.extend longer)
        fun later ids ⟨upserted, each⟩ => ?_
      have known := upserted.known.declareInstances each
      dsimp only
      cases capabilitiesUnder row.capabilities hello.maxCapability with
      | error message => exact .done known
      | ok capabilities =>
        refine .call trivial fun superseded => ?_
        have declared := HubHandling.concat ⟨upserted.last, known⟩ ⟨.register worker.workerId, superseded⟩ rfl
        refine meets_proceed (meets_audit _ _ _ _ ⟨declared.last, declared.known⟩)
          (fun later longer => declared.known.extend longer)
          fun later _ audited => .call trivial fun _ => .call trivial fun answer => ?_
        cases answer with
        | error text => exact .done audited.known.append.append
        | ok _ =>
          have acked := audited.concat ⟨.sendHelloAck worker.workerId capabilities, ()⟩ rfl
          have pushed := acked.concat ⟨.pushInstanceConfigs worker.workerId, .ok ()⟩ rfl
          exact (meets_onCommands _ pushed).bind fun later _ there => .done there.known

/-- Committing a snapshot records its jobs, and then what is missing. -/
theorem obeys_commitSnapshot (crypto : Crypto) (instanceId : JsString) (jobs : List JobDefinitionBlob)
    (said : List (Exchange JobAnswer)) :
    Obeys (fun _ statement => ∀ input, statement = .recordJobVersion input →
      ∃ instanceId blob, input = snapshotInput crypto instanceId blob) said
      (commitSnapshot crypto instanceId jobs) := by
  refine Obeys.bind ?_ fun _ later => .call (fun input same => by cases same) fun answer => ?_
  · induction jobs generalizing said with
    | nil => exact .done ()
    | cons blob rest ih =>
      refine Obeys.bind (.ask (fun input same => ?_) fun answer => ?_) fun _ later => ih _
      · cases same
        exact ⟨instanceId, blob, rfl⟩
      · cases answer with
        | error text => exact .throw text
        | ok result => exact .done ()
  · cases answer with
    | error text => exact .throw text
    | ok _ => exact .done ()

theorem meets_handleSnapshot (snapshot : Snapshot) (number count : Nat)
    (handling : HubHandling worker (.snapshot snapshot) said session) :
    Meets (HubFollows config (.session number worker remoteAddress count)) (Known worker) said
      (handleSnapshot config session snapshot) := by
  unfold handleSnapshot
  split
  · exact .done handling.known
  · refine .call trivial fun sweptAt => .call trivial fun startedAt => ?_
    have handled := (handling.concat ⟨.readClock, sweptAt⟩ rfl).concat ⟨.readClock, startedAt⟩ rfl
    dsimp only
    split
    · exact .done handled.known
    · rename_i commit _
      have committed : Meets (HubFollows config (.session number worker remoteAddress count))
          (fun later _ => HubHandling worker (.snapshot snapshot) later session)
          (said ++ [⟨.readClock, sweptAt⟩] ++ [⟨.readClock, startedAt⟩])
          (onJobs (commitSnapshot config.runtime.crypto commit.instanceId commit.jobs)) := by
        refine Meets.within (obeys_commitSnapshot _ _ _ _) handled (fun later statement made there => ?_)
          fun _ _ _ there => there.concat _ rfl
        cases statement with
        | recordJobVersion input =>
          exact ⟨number, worker, remoteAddress, count, _, rfl, there.last, made input rfl⟩
        | _ => exact ⟨number, worker, remoteAddress, count, rfl⟩
      exact committed.bind fun later _ there => .done there.known

theorem meets_handleDefinition (delta : DefinitionDelta) (number count : Nat)
    (handling : HubHandling worker (.definition delta) said session) :
    Meets (HubFollows config (.session number worker remoteAddress count)) (Known worker) said
      (handleDefinition config session delta) := by
  unfold handleDefinition
  split
  · rename_i instanceId job declared isJob
    split
    · refine .ask ⟨number, worker, remoteAddress, count, rfl⟩ fun answer => ?_
      cases answer <;> exact .done handling.known.append
    · rename_i kept
      refine .ask ⟨number, worker, remoteAddress, count, _, rfl, handling.last, job, instanceId, isJob,
        Bool.eq_false_iff.mpr kept, handling.known _ _ declared, rfl⟩ fun answer => ?_
      cases answer <;> exact .done handling.known.append
  · exact .done handling.known

theorem meets_handleCommandResult (result : CommandResult) (number count : Nat)
    (handling : HubHandling worker (.commandResult result) said session) :
    Meets (HubFollows config (.session number worker remoteAddress count)) (Known worker) said
      (handleCommandResult config worker session result) := by
  refine (meets_onCommands _ handling).bind fun later settled there => ?_
  cases settled with
  | error _ => exact .done there.known
  | ok _ =>
    dsimp only
    split
    · exact .done there.known
    · rename_i job isJob
      refine .call trivial fun answer => ?_
      have looked := there.concat ⟨.command (.selectForWorker result.commandId worker.workerId), answer⟩ rfl
      cases answer with
      | error text => exact .done looked.known
      | ok found =>
        cases found with
        | none => exact .done looked.known
        | some command =>
          refine .ite (fun _ => ?_) fun _ => .done looked.known
          refine .ask ⟨number, worker, remoteAddress, count, _, rfl, looked.last, job, command, isJob, ?_, rfl⟩
            fun answer => ?_
          · exact List.mem_append_right _ List.mem_cons_self
          · cases answer <;> exact .done looked.known.append

theorem meets_handleMessage (message : HubMessage) (number count : Nat)
    (handling : HubHandling worker message said session) :
    Meets (HubFollows config (.session number worker remoteAddress count)) (Known worker) said
      (handleMessage config worker remoteAddress session message) := by
  cases message with
  | hello hello => exact meets_handleHello hello handling
  | snapshot snapshot => exact meets_handleSnapshot snapshot number count handling
  | definition delta => exact meets_handleDefinition delta number count handling
  | commandResult result => exact meets_handleCommandResult result number count handling
  | heartbeat instances => exact meets_handleHeartbeat instances handling
  | other => exact .done handling.known

theorem meets_handleMessages (number count left : Nat) (known : Known worker said session) :
    Meets (HubFollows config (.session number worker remoteAddress count)) (Known worker) said
      (handleMessages config worker remoteAddress session left) := by
  induction left generalizing said session with
  | zero => exact .done known
  | succ left ih =>
    refine .call trivial fun message => ?_
    refine (meets_handleMessage message number count ⟨?_, known.append⟩).bind fun later session there => ih there
    rw [lastMessage_concat]
    rfl

end

theorem obeys_teardown (worker : AuthenticatedWorker) (remoteAddress : JsString) (session : HubSession)
    {config : HubConfig} {operation : HubOperation} {said : List (Exchange HubAnswer)} :
    Obeys (HubFollows config operation) said (teardown worker remoteAddress session) := by
  refine .ite (fun _ => .call trivial fun _ => .ask trivial fun answer => ?_) fun _ => .done ()
  cases answer with
  | error text => exact .throw ()
  | ok _ =>
    refine .call trivial fun answer => ?_
    cases answer with
    | error text => exact .throw ()
    | ok _ => exact .done ()

/-- Every operation at the control plane goes by what it was told. -/
theorem obeys_hub (config : HubConfig) (operation : HubOperation) :
    Obeys (HubFollows config operation) [] (operation.body config) := by
  cases operation with
  | session number worker remoteAddress count =>
    have handled : Meets (HubFollows config (.session number worker remoteAddress count)) (Known worker) []
        (handleMessages config worker remoteAddress {
          hostName := worker.hostName, registered := false, instanceIds := [], pending := fun _ => none } count) := by
      apply meets_handleMessages
      intro name id found
      cases found
    exact handled.obeys.bind fun session later => obeys_teardown worker remoteAddress session
  | command operation =>
    have run : Meets (HubFollows config (.command operation)) (fun _ _ => True) []
        (onCommands (operation.body config.service)) :=
      Meets.within (obeys_any _) trivial (fun _ _ _ _ => trivial) fun _ _ _ _ => trivial
    exact run.obeys.bind fun _ _ => .done ()

end RemoteSqlAgent
