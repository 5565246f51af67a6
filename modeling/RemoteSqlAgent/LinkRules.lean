import RemoteSqlAgent.CommandRules
import RemoteSqlAgent.HubRules
import RemoteSqlAgent.SessionLinks

/-! What the sessions and the operations on commands go by. A command is marked as
dispatched by whoever has just sent it; a session registers only in a hello that was
recorded, and between two messages it is settled. -/
namespace RemoteSqlAgent
open Js CallProgram

/-! ## Commands -/

/-- The program has found a command, and sent it to its worker with this signature. -/
def Sent (said : List (Exchange CommandAnswer)) (commandId : JsString) (signature : List UInt8) : Prop :=
  ∃ command row instanceName, ⟨.selectDispatch commandId, .ok (some (row, instanceName))⟩ ∈ said ∧
    ⟨.send row.workerId command, ()⟩ ∈ said ∧ command.id = commandId ∧ command.signature = signature

/-- Only what was sent is marked as dispatched. -/
def DispatchRule (said : List (Exchange CommandAnswer)) : CommandCall → Prop
  | .updateCommand commandId (.dispatched signature _) => Sent said commandId signature
  | .updateForWorker _ _ update => update.state ≠ .dispatched
  | _ => True

section Commands
variable {config : ServiceConfig} {said : List (Exchange CommandAnswer)}

private theorem dispatchRule_markExpired (commandId : JsString) : Obeys DispatchRule said (markExpired commandId) :=
  .call trivial fun _ => .call trivial fun answer => obeys_orFail answer

private theorem dispatchRule_hasExpired (expiresAt : Option Int) : Obeys DispatchRule said (hasExpired expiresAt) := by
  cases expiresAt with
  | none => exact .done false
  | some time => exact .call trivial fun now => .done _

/-- What is marked as dispatched was sent right before. -/
theorem obeys_sendLive {commandId : JsString} {row : CommandRow} {instanceName : JsString}
    (read : ⟨.selectDispatch commandId, .ok (some (row, instanceName))⟩ ∈ said) :
    Obeys DispatchRule said (sendLive config commandId row instanceName) := by
  refine .call trivial fun live : Bool => .ite (fun _ => .call trivial fun now : Int => ?_) fun _ => .done false
  dsimp only
  split
  · exact .throw _
  · rename_i signature _
    refine .call trivial fun _ => .call trivial fun at_ => .ask ?_ fun answer =>
      (obeys_orFail answer).bind fun _ _ => .done true
    refine ⟨{ buildProtoCommand commandId row.type instanceName row.payload now with signature := signature }, row,
      instanceName, ?_, ?_, rfl, rfl⟩
    · simp only [List.append_assoc]
      exact List.mem_append_left _ read
    · exact List.mem_append_left _ (List.mem_append_right _ List.mem_cons_self)

theorem dispatchRule_dispatch (commandId : JsString) : Obeys DispatchRule said (dispatch config commandId) := by
  refine .ask trivial fun answer => ?_
  cases answer with
  | error message => exact .throw _
  | ok found =>
    cases found with
    | none => exact .done false
    | some found =>
      obtain ⟨row, instanceName⟩ := found
      refine .ite (fun _ => .done false) fun _ => (dispatchRule_hasExpired _).bind fun expired later =>
        .ite (fun _ => (dispatchRule_markExpired _).bind fun _ _ => .done false) fun _ => obeys_sendLive ?_
      exact List.mem_append_left _ (List.mem_append_right _ List.mem_cons_self)

theorem dispatchRule_dispatchPendingFor (workerId : JsString) :
    Obeys DispatchRule said (dispatchPendingFor config workerId) := by
  refine .ask trivial fun answer => (obeys_orFail answer).bind fun ids later => ?_
  generalize said ++ [⟨.selectApproved workerId, answer⟩] ++ later = heard
  induction ids generalizing heard with
  | nil => exact .done _
  | cons id rest ih => exact (dispatchRule_dispatch id).bind fun _ _ => (ih _).bind fun _ _ => .done _

theorem dispatchRule_recordResult (params : ResultParams) : Obeys DispatchRule said (recordResult params) := by
  refine .ask trivial fun answer => (obeys_orFail answer).bind fun found later => ?_
  cases found with
  | none => exact .done _
  | some row =>
    refine .call trivial fun at_ => .ask ?_ fun answer => (obeys_orFail answer).bind fun _ _ => ?_
    · cases success : params.success <;> simp [DispatchRule, CommandUpdate.state]
    refine (obeys_writeAudit trivial).bind fun _ _ => ?_
    cases row.issuedBy with
    | none => exact .done _
    | some issuedBy => exact .ask trivial fun answer => (obeys_orFail answer).bind fun _ _ => .done _

/-- Every operation on commands goes by what it sent. -/
theorem obeys_commandBody (operation : CommandOperation) : Obeys DispatchRule [] (operation.body config) := by
  cases operation with
  | create input =>
    refine Obeys.bind ((obeys_effectiveCapabilitiesFor trivial).bind fun effective later => ?_) fun _ _ => .done ()
    refine .ite (fun _ => .throw _) fun _ => .call trivial fun approvedAt => .call trivial fun expiryBase => ?_
    refine .ask trivial fun answer => (obeys_orFail answer).bind fun inserted later => ?_
    refine (obeys_writeAudit trivial).bind fun _ _ => .ite (fun _ => .done _) fun _ => ?_
    exact (dispatchRule_dispatch _).bind fun _ _ => .done _
  | approve commandId approverId approverUsername remoteAddress =>
    refine .ask trivial fun answer => (obeys_orFail answer).bind fun found later => ?_
    cases found with
    | none => exact .throw _
    | some row =>
      refine .ite (fun _ => .throw _) fun _ => .ite (fun _ => .throw _) fun _ => ?_
      refine (dispatchRule_hasExpired _).bind fun expired _ => .ite
        (fun _ => (dispatchRule_markExpired _).bind fun _ _ => .throw _) fun _ => .call trivial fun at_ => ?_
      refine .ask trivial fun answer => (obeys_orFail answer).bind fun _ _ =>
        (obeys_writeAudit trivial).bind fun _ _ => ?_
      exact (dispatchRule_dispatch _).bind fun _ _ => .done _
  | reject commandId rejectorUsername reason remoteAddress =>
    refine .ask trivial fun answer => (obeys_orFail answer).bind fun found later => ?_
    cases found with
    | none => exact .throw _
    | some row =>
      refine .ite (fun _ => .throw _) fun _ => .call trivial fun at_ => .ask trivial fun answer => ?_
      exact (obeys_orFail answer).bind fun _ _ => obeys_writeAudit trivial
  | dispatch commandId => exact (dispatchRule_dispatch _).bind fun _ _ => .done ()
  | dispatchPendingFor workerId => exact (dispatchRule_dispatchPendingFor _).bind fun _ _ => .done ()
  | recordResult params => exact (dispatchRule_recordResult _).bind fun _ _ => .done ()
  | expireStale =>
    refine Obeys.bind (.call trivial fun _ => .call trivial fun _ => .ask trivial fun answer => ?_) fun _ _ => .done ()
    exact (obeys_orFail answer).bind fun _ _ => .done _
  | markExpired commandId => exact dispatchRule_markExpired _

end Commands

/-! ## Sessions -/

/-- Where a session is. -/
def stageOf (said : List (Exchange HubAnswer)) : SessionStage := said.foldl SessionStage.next .settled

@[simp] theorem stageOf_concat (said : List (Exchange HubAnswer)) (exchange : Exchange HubAnswer) :
    stageOf (said ++ [exchange]) = (stageOf said).next exchange := by
  simp [stageOf]

theorem stageOf_next {said : List (Exchange HubAnswer)} {exchange : Exchange HubAnswer} {stage other : SessionStage}
    (here : stageOf said = stage) (moves : stage.next exchange = other) : stageOf (said ++ [exchange]) = other := by
  rw [stageOf_concat, here, moves]

/-- A session of a worker can make the statement where it is. -/
def HubCall.Fits (workerId : JsString) (stage : SessionStage) : HubCall → Prop
  | .receive => stage = .settled
  | .recordWorkerHello owner _ _ _ => owner = workerId
  | .upsertInstance owner _ => owner = workerId ∧ stage ≠ .leaving
  | .insertSyncState _ => stage ≠ .leaving
  | .register owner => owner = workerId ∧ stage = .greeting
  | .unregister owner => owner = workerId ∧ stage = .settled
  | .markWorkerDisconnected owner => owner = workerId ∧ stage = .leaving
  | _ => True

/-- What a session of a worker goes by. -/
def LinkRule (workerId : JsString) (said : List (Exchange HubAnswer)) : HubCall → Prop
  | .command statement => DispatchRule (said.filterMap ofCommand) statement
  | statement => statement.Fits workerId (stageOf said)

theorem LinkRule.fits {workerId : JsString} {said : List (Exchange HubAnswer)} {statement : HubCall}
    (rule : LinkRule workerId said statement) : statement.Fits workerId (stageOf said) := by
  cases statement with
  | command => trivial
  | _ => exact rule

/-- The statement leaves a session where it is, and asks for nothing. -/
def HubCall.Quiet : HubCall → Prop
  | .command (.writeAudit _) | .command (.selectForWorker _ _) => True
  | .job _ | .readClock | .sendHelloAck _ _ | .recordCredentialKey _ _ | .touchWorker _ | .pushInstanceConfigs _ => True
  | _ => False

theorem HubCall.Quiet.next {statement : HubCall} (quiet : statement.Quiet) (stage : SessionStage)
    (answer : HubAnswer statement) : stage.next ⟨statement, answer⟩ = stage := by
  cases statement with
  | command | job | readClock | sendHelloAck | recordCredentialKey | touchWorker | pushInstanceConfigs => rfl
  | receive | recordWorkerHello | upsertInstance | insertSyncState | register | unregister | markWorkerDisconnected =>
    exact quiet.elim

theorem HubCall.Quiet.allowed {statement : HubCall} (quiet : statement.Quiet) (workerId : JsString)
    (said : List (Exchange HubAnswer)) : LinkRule workerId said statement := by
  cases statement with
  | command statement =>
    cases statement with
    | writeAudit | selectForWorker => trivial
    | _ => exact quiet.elim
  | job | readClock | sendHelloAck | recordCredentialKey | touchWorker | pushInstanceConfigs => trivial
  | receive | recordWorkerHello | upsertInstance | insertSyncState | register | unregister | markWorkerDisconnected =>
    exact quiet.elim

/-- The session is at a stage. -/
abbrev At (stage : SessionStage) {α : Type} (said : List (Exchange HubAnswer)) (_ : α) : Prop := stageOf said = stage

/-- Nothing is thrown. -/
abbrev Never {Call : Type} {Answer : Call → Type} {α : Type} (_ : List (Exchange Answer)) (_ : α) : Prop := False

section Sessions
variable {config : HubConfig} {worker : AuthenticatedWorker} {workerId remoteAddress : JsString}
  {said : List (Exchange HubAnswer)} {session : HubSession} {stage : SessionStage}

/-- A program of quiet statements leaves the session where it is. -/
theorem goes_quiet {α : Type} {program : Hub α} (within : Within HubCall.Quiet program) (here : stageOf said = stage) :
    Goes (LinkRule workerId) (At stage) (At stage) said program :=
  within.obeys.goes here (fun said _ quiet _ => quiet.allowed workerId said)
    fun _ _ answer quiet there => stageOf_next there (quiet.next stage answer)

/-- So do the operations on commands. -/
theorem goes_onCommands {α : Type} {program : Service α} (obeys : Obeys DispatchRule (said.filterMap ofCommand) program)
    (here : stageOf said = stage) :
    Goes (LinkRule workerId) (At stage) Never said (onCommands program) := by
  generalize isSaid : said.filterMap ofCommand = inner at obeys
  induction obeys generalizing said with
  | done value => exact .done here
  | throw error => exact .done here
  | @call inner request next allowed _ ih =>
    subst isSaid
    refine .call allowed fun answer => ih answer (stageOf_next here rfl) ?_
    rw [List.filterMap_append]
    exact congrArg (said.filterMap ofCommand ++ ·) (List.filterMap_cons_some rfl)

theorem within_orLog {α : Type} (answer : Except JsString α) : Within HubCall.Quiet (orLog answer) := by
  cases answer with
  | error text => exact .throw ()
  | ok value => exact .done value

theorem within_audit (actor action : JsString) (target : Option JsString) :
    Within HubCall.Quiet (audit actor action target remoteAddress) :=
  .call trivial fun answer => within_orLog answer

theorem goes_proceed {α : Type} {program : Hub α} {next : α → Hub HubSession}
    {ends : List (Exchange HubAnswer) → α → Prop}
    {stopped : List (Exchange HubAnswer) → Unit → Prop} {outcome : List (Exchange HubAnswer) → HubSession → Prop}
    {fails : List (Exchange HubAnswer) → Unit → Prop} {rule : List (Exchange HubAnswer) → HubCall → Prop}
    (first : Goes rule ends stopped said program) (stays : ∀ later, stopped later () → outcome later session)
    (second : ∀ later value, ends later value → Goes rule outcome fails later (next value)) :
    Goes rule outcome fails said (proceed program session next) := by
  have caught : Goes rule (fun later result => (result = .error () → outcome later session) ∧
      ∀ value, result = .ok value → ends later value) fails said program.attempt := by
    refine first.attempt (fun later value holds => ⟨fun same => (by cases same), fun other same => ?_⟩)
      fun later error holds => ⟨fun _ => stays later holds, fun value same => (by cases same)⟩
    cases same
    exact holds
  refine caught.bind fun later result holds => ?_
  cases result with
  | error error => exact .done (holds.1 rfl)
  | ok value => exact second later value (holds.2 value rfl)

/-- Instances that cannot be upserted leave a session that is not registered. -/
theorem goes_upsertInstances (names : List JsString) (here : stageOf said = stage) (stays : stage ≠ .leaving) :
    Goes (LinkRule workerId) (At stage) (At .settled) said (upsertInstances workerId names) := by
  induction names generalizing said with
  | nil => exact .done here
  | cons name rest ih =>
    refine .ask ⟨rfl, ne_of_eq_of_ne here stays⟩ fun answer => ?_
    cases answer with
    | error text => exact .throw (stageOf_next here rfl)
    | ok id =>
      have upserted : stageOf (said ++ [⟨.upsertInstance workerId name, .ok id⟩]) = stage := stageOf_next here rfl
      refine .ask (ne_of_eq_of_ne upserted stays) fun answer => ?_
      cases answer with
      | error text => exact .throw (stageOf_next upserted rfl)
      | ok _ => exact (ih (stageOf_next upserted rfl)).bind fun later ids there => .done there

theorem goes_attempt_quiet {α : Type} {program : Hub α} (within : Within HubCall.Quiet program)
    (here : stageOf said = stage) :
    Goes (LinkRule workerId) (At stage) Never said program.attempt :=
  (goes_quiet within here).attempt (fun _ _ there => there) fun _ _ there => there

theorem goes_publishCredentialKey (hostName publicKey : JsString) (here : stageOf said = stage) :
    Goes (LinkRule workerId) (At stage) Never said
      (publishCredentialKey worker remoteAddress hostName publicKey) := by
  unfold publishCredentialKey
  refine Goes.ite (fun _ => (goes_attempt_quiet ?_ here).bind fun _ _ there => .done there) fun _ => .done here
  refine Within.bind (.call trivial fun answer => within_orLog answer) fun changed => ?_
  exact .ite (within_audit _ _ _) (.done ())

/-- A hello that was recorded registers the session, or leaves it as it was. -/
theorem goes_handleHello (hello : HubHello) (here : stageOf said = .settled) :
    Goes (LinkRule worker.workerId) (At .settled) Never said
      (handleHello config worker remoteAddress session hello) := by
  unfold handleHello
  split
  · exact goes_proceed (goes_quiet (within_audit _ _ _) here) (fun _ there => there) fun _ _ there => .done there
  · refine Goes.call rfl fun answer => ?_
    cases answer with
    | error text => exact .done (stageOf_next here rfl)
    | ok row =>
      have recorded : stageOf (said ++ [⟨.recordWorkerHello worker.workerId hello.workerVersion hello.maxCapability
          remoteAddress, .ok row⟩]) = if hello.maxCapability ∈ OBJECT_PROTOTYPE then .settled else .greeting :=
        stageOf_next here rfl
      refine goes_proceed (goes_publishCredentialKey _ _ recorded) (fun _ never => never.elim) fun later _ there => ?_
      refine goes_proceed (goes_upsertInstances _ there (by split <;> decide)) (fun _ stopped =>
        stopped) fun later ids there => ?_
      dsimp only
      rw [capabilitiesUnder_eq]
      by_cases inherited : hello.maxCapability ∈ OBJECT_PROTOTYPE
      · simp only [if_pos inherited] at there ⊢
        exact .done there
      · simp only [if_neg inherited] at there ⊢
        refine Goes.call ⟨rfl, there⟩ fun superseded => ?_
        refine goes_proceed (goes_quiet (within_audit _ _ _) (stageOf_next there rfl)) (fun _ stopped => stopped)
          fun later _ there => .call trivial fun _ => ?_
        refine goes_proceed (goes_quiet (.call trivial fun answer => within_orLog answer) (stageOf_next there rfl))
          (fun _ stopped => stopped) fun later _ there => ?_
        exact (goes_onCommands (dispatchRule_dispatchPendingFor _) there).bind fun _ _ there => .done there

theorem goes_onJobs {α : Type} (program : JobProgram α) (here : stageOf said = stage) :
    Goes (LinkRule workerId) (At stage) Never said (onJobs program) := by
  induction program generalizing said with
  | done value => exact .done here
  | throw error => exact .done here
  | call request next ih => exact .call trivial fun answer => ih answer (stageOf_next here rfl)

theorem goes_handleSnapshot (snapshot : Snapshot) (here : stageOf said = .settled) :
    Goes (LinkRule workerId) (At .settled) Never said (handleSnapshot config session snapshot) := by
  unfold handleSnapshot
  split
  · exact .done here
  · refine Goes.call trivial fun sweptAt => .call trivial fun startedAt => ?_
    have there : stageOf (said ++ [⟨.readClock, sweptAt⟩] ++ [⟨.readClock, startedAt⟩]) = .settled :=
      stageOf_next (stageOf_next here rfl) rfl
    dsimp only
    split
    · exact .done there
    · exact (goes_onJobs _ there).bind fun _ _ there => .done there

theorem goes_handleDefinition (delta : DefinitionDelta) (here : stageOf said = .settled) :
    Goes (LinkRule workerId) (At .settled) Never said (handleDefinition config session delta) := by
  unfold handleDefinition
  split
  · split
    · refine Goes.bind (goes_attempt_quiet ?_ here) fun _ _ there => .done there
      exact .call trivial fun answer => within_orLog answer
    · refine Goes.bind (goes_attempt_quiet ?_ here) fun _ _ there => .done there
      exact .call trivial fun answer => within_orLog answer
  · exact .done here

theorem goes_handleCommandResult (result : CommandResult) (here : stageOf said = .settled) :
    Goes (LinkRule workerId) (At .settled) Never said (handleCommandResult config worker session result) := by
  refine (goes_onCommands (dispatchRule_recordResult _) here).bind fun later recorded there => ?_
  cases recorded with
  | error error => exact .done there
  | ok command =>
    cases result.resultingJob with
    | none => exact .done there
    | some job =>
      refine goes_proceed (goes_quiet (.call trivial fun answer => within_orLog answer) there)
        (fun _ stopped => stopped)
        fun later command there => ?_
      cases command with
      | none => exact .done there
      | some command =>
        refine Goes.ite (fun _ => Goes.bind ?_ fun _ _ there => .done there) fun _ => .done there
        exact goes_attempt_quiet (.call trivial fun answer => within_orLog answer) there

theorem goes_handleHeartbeat (names : List JsString) (here : stageOf said = .settled) :
    Goes (LinkRule worker.workerId) (At .settled) Never said (handleHeartbeat worker session names) := by
  refine goes_proceed (goes_quiet (.call trivial fun answer => within_orLog answer) here) (fun _ stopped => stopped)
    fun later _ there => ?_
  exact goes_proceed (goes_upsertInstances _ there (by decide)) (fun _ stopped => stopped) fun later ids there =>
    .done there

theorem goes_handleMessage (message : HubMessage) (here : stageOf said = .settled) :
    Goes (LinkRule worker.workerId) (At .settled) Never said
      (handleMessage config worker remoteAddress session message) := by
  cases message with
  | hello hello => exact goes_handleHello hello here
  | snapshot snapshot => exact goes_handleSnapshot snapshot here
  | definition delta => exact goes_handleDefinition delta here
  | commandResult result => exact goes_handleCommandResult result here
  | heartbeat instances => exact goes_handleHeartbeat instances here
  | other => exact .done here

/-- A teardown that unregisters goes on to record it, whether or not it can. -/
theorem goes_teardown (here : stageOf said = .settled) :
    Goes (LinkRule worker.workerId) (At .settled) (At .settled) said (teardown worker remoteAddress session) := by
  refine Goes.ite (fun _ => ?_) fun _ => .done here
  refine .call ⟨rfl, here⟩ fun _ => Goes.ask ⟨rfl, stageOf_next here rfl⟩ fun answer => ?_
  have there :
      stageOf (said ++ [⟨.unregister worker.workerId, ()⟩] ++ [⟨.markWorkerDisconnected worker.workerId, answer⟩]) =
      .settled := stageOf_next (stageOf_next here rfl) rfl
  cases answer with
  | error text => exact .throw there
  | ok _ => exact goes_quiet (within_audit _ _ _) there

theorem goes_handleWork (work : List QueuedWork) (here : stageOf said = .settled) :
    Goes (LinkRule worker.workerId) (At .settled) Never said (handleWork config worker remoteAddress session work) := by
  induction work generalizing said session with
  | nil => exact .done here
  | cons item rest ih =>
    cases item with
    | message =>
      exact .call here fun message => (goes_handleMessage message (stageOf_next here rfl)).bind fun _ _ there =>
        ih there
    | teardown =>
      exact ((goes_teardown here).attempt (fun _ _ there => there) fun _ _ there => there).bind fun _ _ there =>
        ih there

end Sessions

/-! ## Links -/

/-- The statement of a session that an exchange is. -/
def ofSession : Exchange LinkAnswer → Option (Exchange HubAnswer)
  | ⟨.hub _ statement, answer⟩ => some ⟨statement, answer⟩
  | _ => none

/-- The statement on commands that an exchange is. -/
def ofOperation : Exchange LinkAnswer → Option (Exchange CommandAnswer)
  | ⟨.command _ statement, answer⟩ => some ⟨statement, answer⟩
  | _ => none

/-- What an operation goes by. -/
def LinkFollows : LinkOperation → List (Exchange LinkAnswer) → LinkCall → Prop
  | .session number worker _ _, said, .accept opened workerId =>
    said = [] ∧ opened = number ∧ workerId = worker.workerId
  | .session number worker _ _, said, .hub spoken statement =>
    spoken = number ∧ LinkRule worker.workerId (said.filterMap ofSession) statement
  | .command process _, said, .command spoken statement =>
    spoken = process ∧ DispatchRule (said.filterMap ofOperation) statement
  | .close number, _, .close closed => closed = number
  | .restart, _, .restart => True
  | _, _, _ => False

/-- A session that has ended is settled. -/
def LinkEnds : LinkOperation → List (Exchange LinkAnswer) → Unit → Prop
  | .session _ _ _ _, said, _ => stageOf (said.filterMap ofSession) = .settled
  | _, _, _ => True

theorem goes_linkBody (config : HubConfig) (operation : LinkOperation) :
    Goes (LinkFollows operation) (LinkEnds operation) Never [] (operation.body config) := by
  cases operation with
  | session number worker remoteAddress work =>
    refine .call ⟨rfl, rfl, rfl⟩ fun _ => Goes.bind (Goes.inside ofSession ?_ ?_ (goes_handleWork work rfl))
      fun later result holds => .done ?_
    · exact fun _ _ => rfl
    · exact fun said request rule => ⟨rfl, rule⟩
    · cases result with
      | error error => exact (holds.2 error rfl).elim
      | ok session => exact holds.1 session rfl
  | command process operation =>
    have made : Goes DispatchRule (fun _ _ => True) (fun _ _ => True) [] (operation.body config.service) :=
      (obeys_commandBody operation).goes trivial (fun _ _ rule _ => rule) fun _ _ _ _ _ => trivial
    have followed : Goes (LinkFollows (.command process operation)) (fun _ _ => True) Never []
        (asCommand process (operation.body config.service)) :=
      (Goes.inside ofOperation (fun _ _ => rfl) (fun said request rule => ⟨rfl, rule⟩) made).imp
        (fun _ _ _ => trivial) fun _ _ never => never
    exact followed.bind fun _ _ _ => .done trivial
  | close number => exact .call rfl fun _ => .done trivial
  | restart => exact .call trivial fun _ => .done trivial

/-- A session begins by being opened. -/
def Opens (operation : LinkOperation) (said : List (Exchange LinkAnswer)) (call : LinkCall) : Prop :=
  ∀ number worker remoteAddress work, operation = .session number worker remoteAddress work → said = [] →
    call = .accept number worker.workerId

theorem obeys_opens (config : HubConfig) (operation : LinkOperation) :
    Obeys (Opens operation) [] (operation.body config) := by
  cases operation with
  | session number worker remoteAddress work =>
    refine .call (fun _ _ _ _ same _ => by cases same; rfl) fun _ => ?_
    refine (obeys_heard _ List.mem_cons_self).mono fun said call heard _ _ _ _ _ empty => ?_
    rw [empty] at heard
    cases heard
  | command | close | restart => exact (obeys_any _).mono fun _ _ _ _ _ _ _ same => by cases same

end RemoteSqlAgent
