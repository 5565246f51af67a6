import RemoteSqlAgent.LinkRuns
import RemoteSqlAgent.CommandRules

/-! When a command counts as dispatched. It is sent to the live session of its worker
and marked right after, whether or not the stream of the session took it. Until it is
marked it stays approved, and the next hello of its worker dispatches it again. -/
namespace RemoteSqlAgent
open Js CallProgram

/-! ## Commands in a run of the links -/

/-- The statement on commands that an exchange is, of a session or of an operation. -/
def commandOf : Exchange LinkAnswer → Option (Exchange CommandAnswer)
  | ⟨.hub _ (.command statement), answer⟩ => some ⟨statement, answer⟩
  | ⟨.command _ statement, answer⟩ => some ⟨statement, answer⟩
  | _ => none

theorem mem_of_session {said : List (Exchange LinkAnswer)} {exchange : Exchange CommandAnswer}
    (member : exchange ∈ (said.filterMap ofSession).filterMap ofCommand) :
    ∃ heard ∈ said, commandOf heard = some exchange := by
  obtain ⟨inner, there, isInner⟩ := List.mem_filterMap.mp member
  obtain ⟨heard, outer, isOuter⟩ := List.mem_filterMap.mp there
  refine ⟨heard, outer, ?_⟩
  unfold ofSession at isOuter
  split at isOuter
  · cases isOuter
    unfold ofCommand at isInner
    split at isInner
    · rename_i same
      cases same
      exact isInner
    · cases isInner
  · cases isOuter

theorem mem_of_operation {said : List (Exchange LinkAnswer)} {exchange : Exchange CommandAnswer}
    (member : exchange ∈ said.filterMap ofOperation) : ∃ heard ∈ said, commandOf heard = some exchange := by
  obtain ⟨heard, there, isHeard⟩ := List.mem_filterMap.mp member
  refine ⟨heard, there, ?_⟩
  unfold ofOperation at isHeard
  split at isHeard
  · exact isHeard
  · cases isHeard

/-- Whoever makes a statement on commands goes by what was sent. -/
theorem dispatchRule_of_follows {operation : LinkOperation} {said : List (Exchange LinkAnswer)} {request : LinkCall}
    {answer : LinkAnswer request} {statement : Exchange CommandAnswer} (follows : LinkFollows operation said request)
    (is : commandOf ⟨request, answer⟩ = some statement) :
    ∃ heard, DispatchRule heard statement.1 ∧ ∀ exchange ∈ heard, ∃ outer ∈ said, commandOf outer = some exchange := by
  unfold commandOf at is
  split at is
  · rename_i same
    cases same
    cases is
    cases operation with
    | session => exact ⟨_, follows.2, fun exchange member => mem_of_session member⟩
    | command | close | restart => exact follows.elim
  · rename_i same
    cases same
    cases is
    cases operation with
    | command => exact ⟨_, follows.2, fun exchange member => mem_of_operation member⟩
    | session | close | restart => exact follows.elim
  · cases is

section Steps
variable {runtime : Runtime} {store after : LinkStore} {request : LinkCall} {answer : LinkAnswer request}

/-- A step is a statement on commands, or leaves them as they are. -/
theorem LinkCall.Does.commands (does : request.Does runtime store answer after) :
    (∃ statement, commandOf ⟨request, answer⟩ = some statement ∧
      statement.1.Does store.hub.commands statement.2 after.hub.commands) ∨
      (commandOf ⟨request, answer⟩ = none ∧ after.hub.commands = store.hub.commands) := by
  cases request with
  | accept number workerId =>
    obtain ⟨-, rfl⟩ := does
    exact .inr ⟨rfl, rfl⟩
  | hub number statement =>
    obtain ⟨-, hub, now, does, -, rfl⟩ := does
    cases statement with
    | command statement =>
      obtain ⟨commands, does, rfl⟩ := does
      exact .inl ⟨_, rfl, does⟩
    | job statement =>
      obtain ⟨tables, -, rfl⟩ := does
      exact .inr ⟨rfl, rfl⟩
    | upsertInstance workerId instanceName =>
      cases answer with
      | error text =>
        cases does
        exact .inr ⟨rfl, rfl⟩
      | ok id => rcases does with ⟨-, rfl⟩ | ⟨-, -, rfl⟩ <;> exact .inr ⟨rfl, rfl⟩
    | _ =>
      cases does
      exact .inr ⟨rfl, rfl⟩
  | command process statement =>
    obtain ⟨-, commands, does, -, rfl⟩ := does
    exact .inl ⟨_, rfl, does⟩
  | close number =>
    cases does
    exact .inr ⟨rfl, rfl⟩
  | restart =>
    obtain ⟨process, -, rfl⟩ := does
    exact .inr ⟨rfl, rfl⟩

/-- A stream stays with its worker. -/
theorem LinkCall.Does.owner (does : request.Does runtime store answer after) {number : Nat} {workerId : JsString}
    {place : Nat × SessionStage} (stands : store.standing number = some (workerId, place)) :
    ∃ place, after.standing number = some (workerId, place) := by
  cases request with
  | accept other owner =>
    obtain ⟨free, standing⟩ := does.standing_accept
    have different : number ≠ other := by
      rintro rfl
      cases free.symm.trans stands
    exact ⟨place, by rw [standing, Function.update_of_ne different, stands]⟩
  | hub other statement =>
    rw [does.standing_hub]
    rcases eq_or_ne number other with rfl | different
    · exact ⟨_, by rw [Function.update_self, stands, Option.map_some]⟩
    · exact ⟨place, by rw [Function.update_of_ne different, stands]⟩
  | command | close | restart =>
    have standing := does.standing_other (fun _ _ same => by cases same) (fun _ _ same => by cases same)
    exact ⟨place, by rw [standing, stands]⟩

namespace LinkStore

/-- The live session of a worker has a stream that takes what is written. -/
def Takes (store : LinkStore) (workerId : JsString) : Prop :=
  ∃ number stream, store.registry workerId = some number ∧ store.streams number = some stream ∧ stream.writable = true

/-- The command was written to a stream of the worker. -/
def Wrote (store : LinkStore) (workerId : JsString) (command : Command) : Prop :=
  ∃ number stream, (number, command) ∈ store.written ∧ store.streams number = some stream ∧ stream.workerId = workerId

/-- Live sessions are sessions of their workers. -/
def Enrolled (store : LinkStore) : Prop :=
  ∀ workerId number, store.registry workerId = some number → ∃ place, store.standing number = some (workerId, place)

theorem wrote_iff {workerId : JsString} {command : Command} : store.Wrote workerId command ↔
    ∃ number place, (number, command) ∈ store.written ∧ store.standing number = some (workerId, place) := by
  constructor
  · rintro ⟨number, stream, member, found, rfl⟩
    exact ⟨number, (stream.process, stream.stage), member, by rw [standing, found]; rfl⟩
  · rintro ⟨number, place, member, stands⟩
    obtain ⟨stream, found, same⟩ := Option.map_eq_some_iff.mp stands
    exact ⟨number, stream, member, found, congrArg Prod.fst same⟩

/-- Of the statements only a `send` writes, and to the live session. -/
theorem written_link (number : Nat) (now : Int) (exchange : Exchange HubAnswer) :
    store.written <+: (store.link number now exchange).written := by
  unfold link
  split
  · exact List.prefix_rfl
  · unfold disconnect
    split <;> exact List.prefix_rfl
  · split <;> exact List.prefix_rfl
  · exact List.prefix_rfl
  · unfold write
    split
    · exact List.prefix_rfl
    · split
      · exact List.prefix_append _ _
      · exact List.prefix_rfl
  · exact List.prefix_rfl

/-- The registry after a statement: as it was, without a worker, or with the session. -/
theorem registry_link (number : Nat) (now : Int) (exchange : Exchange HubAnswer) {workerId : JsString} {live : Nat}
    (registered : (store.link number now exchange).registry workerId = some live) :
    store.registry workerId = some live ∨ (live = number ∧ exchange.1 = .register workerId) := by
  unfold link at registered
  split at registered
  · exact .inl registered
  · rename_i owner answer
    have same : (store.disconnect owner).registry = store.registry := by
      unfold disconnect
      split <;> rfl
    simp only [same] at registered
    rcases eq_or_ne workerId owner with rfl | different
    · rw [Function.update_self] at registered
      exact .inr ⟨(Option.some.inj registered).symm, rfl⟩
    · rw [Function.update_of_ne different] at registered
      exact .inl registered
  · split at registered
    · rename_i owner answer _
      change Function.update store.registry owner none workerId = some live at registered
      rcases eq_or_ne workerId owner with rfl | different
      · rw [Function.update_self] at registered
        cases registered
      · rw [Function.update_of_ne different] at registered
        exact .inl registered
    · exact .inl registered
  · exact .inl registered
  · unfold write at registered
    split at registered
    · exact .inl registered
    · split at registered <;> exact .inl registered
  · exact .inl registered

end LinkStore

/-- What was written stays written. -/
theorem LinkCall.Does.wrote (does : request.Does runtime store answer after) {workerId : JsString} {command : Command}
    (wrote : store.Wrote workerId command) : after.Wrote workerId command := by
  obtain ⟨number, place, member, stands⟩ := LinkStore.wrote_iff.mp wrote
  obtain ⟨later, still⟩ := does.owner stands
  refine LinkStore.wrote_iff.mpr ⟨number, later, ?_, still⟩
  cases request with
  | accept other owner =>
    obtain ⟨-, rfl⟩ := does
    exact member
  | hub other statement =>
    obtain ⟨-, hub, now, -, -, rfl⟩ := does
    exact (store.written_link other now ⟨statement, answer⟩).subset member
  | command process statement =>
    obtain ⟨-, commands, -, -, rfl⟩ := does
    exact (store.written_link 0 0 ⟨.command statement, answer⟩).subset member
  | close other =>
    cases does
    exact member
  | restart =>
    obtain ⟨process, -, rfl⟩ := does
    exact member

/-- A session registers as one of its worker. -/
theorem LinkStore.Enrolled.step (enrolled : store.Enrolled) (does : request.Does runtime store answer after)
    (speaks : ∀ number statement, request = .hub number statement → ∃ workerId stage,
      store.standing number = some (workerId, store.process, stage) ∧
        statement.Fits workerId stage) : after.Enrolled := by
  intro workerId number registered
  have old (before : store.registry workerId = some number) :
      ∃ place, after.standing number = some (workerId, place) := by
    obtain ⟨place, stands⟩ := enrolled workerId number before
    exact does.owner stands
  cases request with
  | accept other owner =>
    apply old
    obtain ⟨-, rfl⟩ := does
    exact registered
  | hub other statement =>
    obtain ⟨owner, stage, stands, fits⟩ := speaks other statement rfl
    have kept := does.owner stands
    obtain ⟨-, hub, now, -, -, rfl⟩ := id does
    rcases store.registry_link other now ⟨statement, answer⟩ registered with before | ⟨rfl, isRegister⟩
    · exact old before
    · cases isRegister
      exact fits.1 ▸ kept
  | command process statement =>
    obtain ⟨-, commands, -, -, rfl⟩ := id does
    rcases store.registry_link 0 0 ⟨.command statement, answer⟩ registered with before | ⟨-, isRegister⟩
    · exact old before
    · cases isRegister
  | close other =>
    apply old
    cases does
    exact registered
  | restart =>
    obtain ⟨process, -, rfl⟩ := does
    cases registered

/-- What is sent to a stream that takes it is written to a stream of the worker. -/
theorem wrote_of_send (enrolled : store.Enrolled) (does : request.Does runtime store answer after) {workerId : JsString}
    {command : Command} {told : Unit} (sends : commandOf ⟨request, answer⟩ = some ⟨.send workerId command, told⟩)
    (takes : store.Takes workerId) : after.Wrote workerId command := by
  obtain ⟨number, stream, live, found, writable⟩ := takes
  obtain ⟨place, stands⟩ := enrolled workerId number live
  obtain ⟨later, still⟩ := does.owner stands
  have written : (store.write workerId command).written = store.written ++ [(number, command)] := by
    simp [LinkStore.write, live, found, writable]
  refine LinkStore.wrote_iff.mpr ⟨number, later, ?_, still⟩
  cases request with
  | hub other statement =>
    cases statement with
    | command statement =>
      cases sends
      obtain ⟨-, hub, now, -, -, rfl⟩ := does
      change _ ∈ (store.write workerId command).written
      simp [written]
    | _ => cases sends
  | command process statement =>
    cases sends
    obtain ⟨-, commands, -, -, rfl⟩ := does
    change _ ∈ (store.write workerId command).written
    simp [written]
  | accept | close | restart => cases sends

end Steps

/-! ## What dispatching comes to -/

/-- What a dispatch found a command to be, and did about it: it was not approved any more,
or has expired and was marked so, or its worker is not connected, or it was sent and
marked. -/
def Attended (transcript : List (Exchange CommandAnswer)) (commandId : JsString) : Prop :=
  ∃ found, ⟨.selectDispatch commandId, .ok found⟩ ∈ transcript ∧
    ((∀ row instanceName, found = some (row, instanceName) → row.state ≠ .approved) ∨
      (∃ at_, ⟨.updateCommand commandId (.expired at_), .ok ()⟩ ∈ transcript) ∨
      (∃ row instanceName, found = some (row, instanceName) ∧ ⟨.isLive row.workerId, false⟩ ∈ transcript) ∨
      ∃ signature at_, ⟨.updateCommand commandId (.dispatched signature at_), .ok ()⟩ ∈ transcript)

theorem Attended.longer {transcript more : List (Exchange CommandAnswer)} {commandId : JsString}
    (attended : Attended transcript commandId) (longer : transcript <+: more) : Attended more commandId := by
  obtain ⟨found, read, outcome⟩ := attended
  refine ⟨found, longer.subset read, ?_⟩
  rcases outcome with settled | ⟨at_, expired⟩ | ⟨row, instanceName, same, offline⟩ | ⟨signature, at_, dispatched⟩
  · exact .inl settled
  · exact .inr (.inl ⟨at_, longer.subset expired⟩)
  · exact .inr (.inr (.inl ⟨row, instanceName, same, longer.subset offline⟩))
  · exact .inr (.inr (.inr ⟨signature, at_, longer.subset dispatched⟩))

section Dispatch
variable {config : ServiceConfig} {said : List (Exchange CommandAnswer)}

private theorem meets_update {commandId : JsString} {update : CommandUpdate} {result : Bool}
    {ends : List (Exchange CommandAnswer) → Bool → Prop}
    (holds : ends (said ++ [⟨.updateCommand commandId update, .ok ()⟩]) result) :
    Meets (fun _ _ => True) ends said (CallProgram.call (.updateCommand commandId update) orFail >>= fun _ =>
      .done result) := by
  refine .ask trivial fun answer => ?_
  cases answer with
  | error message => exact .throw _
  | ok _ => exact .done holds

theorem meets_dispatch (commandId : JsString) :
    Meets (fun _ _ => True) (fun later _ => Attended later commandId) said (dispatch config commandId) := by
  refine .ask trivial fun answer => ?_
  cases answer with
  | error message => exact .throw _
  | ok found =>
    have read : (⟨.selectDispatch commandId, .ok found⟩ : Exchange CommandAnswer) ∈
        said ++ [⟨.selectDispatch commandId, .ok found⟩] := by simp
    generalize said ++ [⟨.selectDispatch commandId, .ok found⟩] = heard at read
    cases found with
    | none => exact .done ⟨none, read, .inl fun _ _ same => by cases same⟩
    | some found =>
      obtain ⟨row, instanceName⟩ := found
      refine .ite (fun settled => .done ⟨_, read, .inl fun _ _ same => ?_⟩) fun _ => ?_
      · cases same
        exact settled
      · refine (obeys_any (hasExpired row.expiresAt)).meets.bind fun later expired longer => ?_
        have still := longer.subset read
        refine .ite (fun _ => .call trivial fun now : Int => meets_update
          ⟨some (row, instanceName), ?_, .inr (.inl ⟨now, ?_⟩)⟩) fun _ => ?_
        · exact List.mem_append_left _ (List.mem_append_left _ still)
        · exact List.mem_append_right _ List.mem_cons_self
        · refine .call trivial fun live : Bool => ?_
          cases live with
          | false =>
            refine .done ⟨_, List.mem_append_left _ still, .inr (.inr (.inl ⟨row, instanceName, rfl, ?_⟩))⟩
            exact List.mem_append_right _ List.mem_cons_self
          | true =>
            refine .call trivial fun now : Int => ?_
            dsimp only
            split
            · exact .throw _
            · rename_i signature _
              refine .call trivial fun _ => .call trivial fun at_ : Int => meets_update
                ⟨some (row, instanceName), ?_, .inr (.inr (.inr ?_))⟩
              · simp only [List.append_assoc]
                exact List.mem_append_left _ still
              · exact ⟨signature, at_, List.mem_append_right _ List.mem_cons_self⟩

theorem meets_dispatchEach (ids : List JsString) :
    Meets (fun _ _ => True) (fun later _ => ∀ id ∈ ids, Attended later id) said (dispatchEach config ids) := by
  induction ids generalizing said with
  | nil => exact .done (by simp)
  | cons id rest ih =>
    refine (meets_dispatch id).bind fun later sent attended => ih.longer.bind fun last others ⟨longer, each⟩ => .done ?_
    exact List.forall_mem_cons.mpr ⟨attended.longer longer, each⟩

/-- A worker that connects has each of its approved commands attended to. -/
theorem meets_dispatchPendingFor (workerId : JsString) :
    Meets (fun _ _ => True) (fun later _ => ∃ ids, ⟨.selectApproved workerId, .ok ids⟩ ∈ later ∧
      ∀ id ∈ ids, Attended later id) said (dispatchPendingFor config workerId) := by
  refine .ask trivial fun answer => ?_
  cases answer with
  | error message => exact .throw _
  | ok ids =>
    refine (meets_dispatchEach ids).longer.imp fun later _ ⟨longer, each⟩ => ⟨ids, longer.subset ?_, each⟩
    exact List.mem_append_right _ List.mem_cons_self

end Dispatch

/-! ## Runs -/

/-- If a step sends a command, then to a live session whose stream takes it. -/
def Writable (taken : LinkStep) : Prop :=
  ∀ workerId command told, commandOf taken.exchange = some ⟨.send workerId command, told⟩ → taken.before.Takes workerId

/-- What was said on commands is so: what was sent was written, and a command that was
found is still its worker's. -/
def Borne (exchange : Exchange LinkAnswer) (store : LinkStore) : Prop :=
  ∀ statement, commandOf exchange = some statement →
    (∀ workerId command told, statement = ⟨.send workerId command, told⟩ → store.Wrote workerId command) ∧
      ∀ id row, foundRow id statement = some row →
        ∃ later, store.hub.commands.commands id = some later ∧ later.workerId = row.workerId

theorem worker_stays {store after : CommandStore} {request : CommandCall} {answer : CommandAnswer request}
    (does : request.Does store answer after) {id : JsString} {row : CommandRow} (found : store.commands id = some row) :
    ∃ later, after.commands id = some later ∧ later.workerId = row.workerId := by
  obtain ⟨later, there, ⟨update, -, rfl⟩ | ⟨-, rfl | ⟨-, at_, rfl⟩⟩⟩ := does_row does found
  · exact ⟨_, there, update.apply_workerId row⟩
  · exact ⟨_, there, rfl⟩
  · exact ⟨_, there, rfl⟩

section Runs
variable {runtime : Runtime} {config : HubConfig} {initial : LinkStore}
  {pool : Pool LinkAnswer Unit Unit LinkStore LinkOperation} {run : List LinkStep}

/-- Whatever a session or an operation was told of commands is so. -/
theorem borne_of_reaches (reaches : Reaches (LinkCall.Does runtime) (LinkOperation.body config) initial pool run)
    (noStreams : ∀ number, initial.streams number = none) (noneLive : ∀ workerId, initial.registry workerId = none)
    (writable : ∀ taken ∈ run, Writable taken) :
    ∀ taken ∈ run, ∀ exchange ∈ taken.said, Borne exchange taken.before := by
  obtain ⟨-, speaks⟩ := tracked_of_reaches reaches noStreams
  have first : initial.Enrolled := fun workerId number registered => by
    rw [noneLive] at registered
    cases registered
  obtain ⟨-, enrolled⟩ := reaches.invariant LinkStore.Enrolled first fun taken member before =>
    before.step (reaches.does taken member) (speaks taken member)
  refine (reaches.told Borne (fun taken member statement is => ⟨?_, ?_⟩) fun taken member exchange borne statement is =>
    ⟨?_, ?_⟩).2
  · rintro workerId command told rfl
    exact wrote_of_send (enrolled taken member) (reaches.does taken member) is (writable taken member _ _ _ is)
  · intro id row read
    rcases (reaches.does taken member).commands with ⟨other, same, does⟩ | ⟨none, -⟩
    · cases is.symm.trans same
      exact ⟨row, does_found does read, rfl⟩
    · cases is.symm.trans none
  · rintro workerId command told rfl
    exact (reaches.does taken member).wrote ((borne _ is).1 _ _ _ rfl)
  · intro id row read
    obtain ⟨later, there, same⟩ := (borne _ is).2 id row read
    rcases (reaches.does taken member).commands with ⟨other, -, does⟩ | ⟨-, unchanged⟩
    · obtain ⟨last, still, stays⟩ := worker_stays does there
      exact ⟨last, still, stays.trans same⟩
    · exact ⟨later, unchanged ▸ there, same⟩

/-- The update reports how a command ended, on somebody's word. -/
def CommandUpdate.Settles : CommandUpdate → Prop
  | .rejected _ _ | .result _ _ _ _ _ => True
  | _ => False

/-- What can become of an approved command: it stays approved, expires, is settled on
somebody's word, or is dispatched after it was written, with this signature, to a
stream of its worker. -/
def Onward (taken : LinkStep) (id : JsString) (row later : CommandRow) : Prop :=
  later.state = .approved ∨ later.state = .expired ∨
    (∃ statement update, commandOf taken.exchange = some statement ∧ updateOf id row statement = some update ∧
      update.Settles ∧ later.state = update.state) ∨
    (later.state = .dispatched ∧ ∃ command, command.id = id ∧ later.signature = some command.signature ∧
      taken.before.Wrote row.workerId command)

theorem onward_of_dispatched {taken : LinkStep} {id : JsString} {row : CommandRow} {signature : List UInt8} {at_ : Int}
    {statement : Exchange CommandAnswer} (found : taken.before.hub.commands.commands id = some row)
    (borne : ∀ exchange ∈ taken.said, Borne exchange taken.before)
    (follows : LinkFollows taken.operation taken.said taken.request) (is : commandOf taken.exchange = some statement)
    (updated : updateOf id row statement = some (.dispatched signature at_)) :
    ∃ command, command.id = id ∧ signature = command.signature ∧ taken.before.Wrote row.workerId command := by
  obtain ⟨heard, rule, told⟩ := dispatchRule_of_follows follows is
  unfold updateOf at updated
  split at updated
  · split at updated
    · rename_i same
      cases same
      cases updated
      obtain ⟨command, other, instanceName, read, sent, rfl, rfl⟩ := rule
      obtain ⟨outer, member, isRead⟩ := told _ read
      obtain ⟨later, there, worker⟩ := (borne outer member _ isRead).2 command.id other (by simp [foundRow])
      cases found.symm.trans there
      obtain ⟨sender, among, isSent⟩ := told _ sent
      exact ⟨command, rfl, rfl, worker ▸ (borne sender among _ isSent).1 _ _ _ rfl⟩
    · cases updated
  · split at updated
    · cases updated
      exact absurd rfl rule
    · cases updated
  · cases updated

/-- **A command is marked as dispatched only after it was written, as long as every
command is sent to a stream that takes it.** In such a run an approved command stays
approved, expires, is settled on somebody's word, or was written to a stream of its worker;
and while it is approved, a worker that connects dispatches it: all of its approved
commands are selected, and each is attended to. -/
theorem dispatched_only_written (reaches : Reaches (LinkCall.Does runtime) (LinkOperation.body config) initial pool run)
    (noStreams : ∀ number, initial.streams number = none) (noneLive : ∀ workerId, initial.registry workerId = none)
    (writable : ∀ taken ∈ run, Writable taken) :
    (∀ taken ∈ run, ∀ id row later, taken.before.hub.commands.commands id = some row →
      taken.after.hub.commands.commands id = some later → row.state = .approved → Onward taken id row later) ∧
    (∀ taken ∈ run, ∀ workerId ids, commandOf taken.exchange = some ⟨.selectApproved workerId, .ok ids⟩ →
      ∀ id row, taken.before.hub.commands.commands id = some row → row.workerId = workerId → row.state = .approved →
        id ∈ ids) ∧
    ∀ workerId transcript count, Runs (dispatchPendingFor config.service workerId) transcript (.ok count) →
      ∃ ids, ⟨.selectApproved workerId, .ok ids⟩ ∈ transcript ∧ ∀ id ∈ ids, Attended transcript id := by
  have borne := borne_of_reaches reaches noStreams noneLive writable
  have follows := (reaches.allowed LinkFollows fun operation => (goes_linkBody config operation).obeys).2
  refine ⟨fun taken member id row later found there approved => ?_,
    fun taken member workerId ids is id row found mine approved => ?_, fun workerId transcript count run => ?_⟩
  · rcases (reaches.does taken member).commands with ⟨statement, is, does⟩ | ⟨-, unchanged⟩
    · obtain ⟨other, same, outcome⟩ := does_row does found
      cases there.symm.trans same
      rcases outcome with ⟨update, updated, rfl⟩ | ⟨-, rfl | ⟨-, at_, rfl⟩⟩
      · cases update with
        | approved approver at_ => exact .inl rfl
        | expired at_ => exact .inr (.inl rfl)
        | rejected | result =>
          exact .inr (.inr (.inl ⟨statement, _, is, updated, trivial, CommandUpdate.apply_state _ _⟩))
        | dispatched signature at_ =>
          obtain ⟨command, named, rfl, wrote⟩ :=
            onward_of_dispatched found (borne taken member) (follows taken member) is updated
          exact .inr (.inr (.inr ⟨rfl, command, named, rfl, wrote⟩))
      · exact .inl approved
      · exact .inr (.inl rfl)
    · rw [unchanged, found] at there
      cases there
      exact .inl approved
  · rcases (reaches.does taken member).commands with ⟨statement, same, does⟩ | ⟨none, -⟩
    · cases is.symm.trans same
      obtain ⟨-, listed, -⟩ := does
      refine listed.mem_iff.mpr (List.mem_filter.mpr ⟨List.mem_dedup.mpr (taken.before.hub.commands.logged id ?_), ?_⟩)
      · rw [found]
        rfl
      · simp [found, mine, approved]
    · cases is.symm.trans none
  · have meets := @meets_dispatchPendingFor config.service [] workerId
    simpa using meets.ended run

end Runs

/-! ## Samples -/

section Samples

def workerLink : LinkOperation := .session 0 sampleWorker (js "10.0.0.5") [.message, .message]

/-- Somebody has the sample job switched on. -/
def sampleToggle : LinkOperation := .command 0 (.create (sampleCreate .toggleJob))

/-- The check of `Writable`. -/
def checksWritable (taken : LinkStep) : Bool :=
  match commandOf taken.exchange with
  | some ⟨.send workerId _, _⟩ =>
    (taken.before.registry workerId).any fun number => (taken.before.streams number).any (·.writable)
  | _ => true

theorem writable_of_checks {taken : LinkStep} (checks : checksWritable taken = true) : Writable taken := by
  intro workerId command told is
  simp only [checksWritable, is] at checks
  obtain ⟨number, live, found⟩ := (Option.any_eq_true _ _).mp checks
  obtain ⟨stream, there, writable⟩ := (Option.any_eq_true _ _).mp found
  exact ⟨number, stream, live, there, writable⟩

def deliveredWork : List LinkWork :=
  [.begin workerLink, .begin sampleToggle, .steps 0 10 sampleHello, .steps 1 12 sampleHello]

/-- A command for a worker that is connected is written, and marked as dispatched. -/
theorem dispatched_only_written_sample : ∃ taken ∈ (afterLinkWork deliveredWork).2, ∃ row later,
    taken.before.hub.commands.commands (js "c1") = some row ∧ row.state = .approved ∧
      taken.after.hub.commands.commands (js "c1") = some later ∧ later.state = .dispatched ∧
      Onward taken (js "c1") row later := by
  have checks : ((afterLinkWork deliveredWork).2.all checksWritable) = true := by decide +kernel
  have dispatches : ((afterLinkWork deliveredWork).2.any fun taken =>
      (taken.before.hub.commands.commands (js "c1")).any (·.state = .approved) &&
        (taken.after.hub.commands.commands (js "c1")).any (·.state = .dispatched)) = true := by decide +kernel
  obtain ⟨taken, member, states⟩ := List.any_eq_true.mp dispatches
  obtain ⟨before, after⟩ := Bool.and_eq_true_iff.mp states
  obtain ⟨row, found, approved⟩ := (Option.any_eq_true _ _).mp before
  obtain ⟨later, there, dispatched⟩ := (Option.any_eq_true _ _).mp after
  have approved := of_decide_eq_true approved
  refine ⟨taken, member, row, later, found, approved, there, of_decide_eq_true dispatched, ?_⟩
  refine (dispatched_only_written (reaches_afterLinkWork deliveredWork) (fun _ => rfl) (fun _ => rfl) ?_).1 taken member
    (js "c1") row later found there approved
  exact fun taken member => writable_of_checks (List.all_eq_true.mp checks taken member)

def undeliveredWork : List LinkWork := [.begin workerLink, .begin (.close 0), .begin sampleToggle,
  .steps 0 10 sampleHello, .steps 1 1 sampleHello, .steps 2 12 sampleHello]

/-- A command for a worker whose stream has ended, and is not torn down yet, is marked as
dispatched and written to no stream. -/
theorem dispatched_unwritten : ∃ pool run, Reaches (LinkCall.Does mirrorRuntime)
    (LinkOperation.body sampleHub) .empty pool run ∧
    ∃ taken ∈ run, ((taken.before.hub.commands.commands (js "c1")).map (·.state)) = some .approved ∧
      ((taken.after.hub.commands.commands (js "c1")).map (·.state)) = some .dispatched ∧
      taken.after.written.isEmpty = true :=
  ⟨_, _, reaches_afterLinkWork undeliveredWork, by decide +kernel⟩

end Samples

end RemoteSqlAgent
