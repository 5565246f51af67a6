import RemoteSqlAgent.Hub

/-! The links of the control plane to its workers. A session becomes the live one of
its worker when a hello is handled, and stops being that when it is torn down, which
waits behind its messages; its stream can end at any time before. In a restart the
registry and all that is under way are lost, and the database is not. -/
namespace RemoteSqlAgent
open Js CallProgram

/-- Where a session is between two statements that belong together: a hello that has
been recorded and is not yet registered, or a teardown that has unregistered and is
not yet recorded. -/
inductive SessionStage where
  | settled
  | greeting
  | leaving
  deriving DecidableEq

/-- The stage after a statement. A hello that cannot upsert its instances stops, and one
whose ceiling is an inherited name goes nowhere. -/
def SessionStage.next (stage : SessionStage) : Exchange HubAnswer → SessionStage
  | ⟨.recordWorkerHello _ _ maxCapability _, .ok _⟩ => if maxCapability ∈ OBJECT_PROTOTYPE then stage else .greeting
  | ⟨.upsertInstance .., .error _⟩ => .settled
  | ⟨.insertSyncState _, .error _⟩ => .settled
  | ⟨.register _, _⟩ => .settled
  | ⟨.unregister _, _⟩ => .leaving
  | ⟨.markWorkerDisconnected _, _⟩ => .settled
  | _ => stage

/-- The stream of a session, the process it was opened in, and where the session is. -/
structure LinkStream where
  workerId : JsString
  process : Nat
  writable : Bool
  stage : SessionStage

structure LinkStore where
  hub : HubStore
  /-- The column of `workers`. -/
  connectedAt : JsString → Option Int
  /-- The live session of each worker, by its number. -/
  registry : JsString → Option Nat
  /-- The process that runs now. -/
  process : Nat
  streams : Nat → Option LinkStream
  /-- The commands that were written to a stream. -/
  written : List (Nat × Command)

namespace LinkStore

def empty : LinkStore where
  hub := .empty
  connectedAt _ := none
  registry _ := none
  process := 0
  streams _ := none
  written := []

def updateStream (store : LinkStore) (number : Nat) (change : LinkStream → LinkStream) : LinkStore :=
  { store with streams := Function.update store.streams number ((store.streams number).map change) }

/-- The stream takes no more messages. -/
def close (store : LinkStore) (number : Nat) : LinkStore :=
  store.updateStream number fun stream => { stream with writable := false }

/-- `existing.disconnect`, if the registry has a session of the worker. -/
def disconnect (store : LinkStore) (workerId : JsString) : LinkStore :=
  match store.registry workerId with
  | none => store
  | some number => store.close number

/-- A stream that is not writable takes nothing, and nobody is told. -/
def write (store : LinkStore) (workerId : JsString) (command : Command) : LinkStore :=
  match store.registry workerId with
  | none => store
  | some number =>
    if (store.streams number).any (·.writable) then { store with written := store.written ++ [(number, command)] }
    else store

/-- What a statement of a session does besides what it does to the hub's tables. -/
def link (store : LinkStore) (number : Nat) (now : Int) : Exchange HubAnswer → LinkStore
  | ⟨.recordWorkerHello workerId _ _ _, .ok _⟩ =>
    { store with connectedAt := Function.update store.connectedAt workerId (some now) }
  | ⟨.register workerId, _⟩ =>
    let closed := store.disconnect workerId
    { closed with registry := Function.update closed.registry workerId (some number) }
  | ⟨.unregister workerId, _⟩ =>
    if store.registry workerId = some number then
      { store with registry := Function.update store.registry workerId none }
    else store
  | ⟨.markWorkerDisconnected workerId, .ok _⟩ =>
    { store with connectedAt := Function.update store.connectedAt workerId none }
  | ⟨.command (.send workerId command), _⟩ => store.write workerId command
  | _ => store

end LinkStore

/-! ## Calls -/

/-- What waits in the queue of a session: a message, or one of the teardowns that
`end`, `error` and `cancelled` enqueue. -/
inductive QueuedWork where
  | message
  | teardown

/-- A teardown that throws leaves the session for the next one. -/
def HubSession.tornDown (session : HubSession) : Except Unit Unit → HubSession
  | .ok _ => { session with registered := false }
  | .error _ => session

section
variable (config : HubConfig) (worker : AuthenticatedWorker) (remoteAddress : JsString)

/-- The queue of a session, with what its stream brings. -/
def handleWork (session : HubSession) : List QueuedWork → Hub HubSession
  | [] => return session
  | .message :: rest => CallProgram.call .receive fun message : HubMessage => do
    let session ← handleMessage config worker remoteAddress session message
    handleWork session rest
  | .teardown :: rest => do
    let ended ← (teardown worker remoteAddress session).attempt
    handleWork (session.tornDown ended) rest

def handleQueue (work : List QueuedWork) : Hub HubSession :=
  handleWork config worker remoteAddress {
    hostName := worker.hostName, registered := false, instanceIds := [], pending := fun _ => none } work

end

/-- The calls of the sessions, with their numbers, and of the operations on commands;
and what happens to streams and to the process. -/
inductive LinkCall where
  /-- A stream of a worker that was authenticated. -/
  | accept (number : Nat) (workerId : JsString)
  | hub (number : Nat) (statement : HubCall)
  | command (process : Nat) (statement : CommandCall)
  /-- The stream half-closes, is cancelled or fails. -/
  | close (number : Nat)
  | restart

def LinkAnswer : LinkCall → Type
  | .accept _ _ => Unit
  | .hub _ statement => HubAnswer statement
  | .command _ statement => CommandAnswer statement
  | .close _ => Unit
  | .restart => Unit

abbrev LinkProgram (α : Type) := CallProgram LinkCall LinkAnswer Unit α

def onSession {α : Type} (number : Nat) (program : Hub α) : LinkProgram (Except Unit α) :=
  program.within (LinkCall.hub number) fun _ answer => answer

def asCommand {α : Type} (process : Nat) (program : Service α) : LinkProgram (Except ServiceError α) :=
  program.within (LinkCall.command process) fun _ answer => answer

/-- Sessions are numbered as they are opened. An operation on commands runs in one
process. -/
inductive LinkOperation where
  | session (number : Nat) (worker : AuthenticatedWorker) (remoteAddress : JsString) (work : List QueuedWork)
  | command (process : Nat) (operation : CommandOperation)
  | close (number : Nat)
  | restart

def LinkOperation.body (config : HubConfig) : LinkOperation → LinkProgram Unit
  | .session number worker remoteAddress work => CallProgram.call (.accept number worker.workerId) fun _ => do
    let _ ← onSession number (handleQueue config worker remoteAddress work)
    return ()
  | .command process operation => do
    let _ ← asCommand process (operation.body config.service)
    return ()
  | .close number => CallProgram.call (.close number) fun _ => return ()
  | .restart => CallProgram.call .restart fun _ => return ()

/-- What the registry answers. Looking a session up and sending to it are one step of
the process, so a command is sent to a session that is in the registry. -/
def LinkStore.Answers (store : LinkStore) : Exchange HubAnswer → Prop
  | ⟨.command (.isLive workerId), answer⟩ => answer = (store.registry workerId).isSome
  | ⟨.command (.send workerId _), _⟩ => (store.registry workerId).isSome
  | ⟨.register workerId, answer⟩ => answer = (store.registry workerId).isSome
  | _ => True

/-- The session was opened in the process that runs now. -/
def LinkStore.Runs (store : LinkStore) (number : Nat) : Prop :=
  ∃ stream, store.streams number = some stream ∧ stream.process = store.process

/-- What a call can answer and do. Only the process that runs does anything. -/
def LinkCall.Does (runtime : Runtime) (store : LinkStore) : (call : LinkCall) → LinkAnswer call → LinkStore → Prop
  | .accept number workerId, _, after => store.streams number = none ∧ after = { store with
      streams := Function.update store.streams number (some ⟨workerId, store.process, true, .settled⟩) }
  | .hub number statement, answer, after => store.Runs number ∧
    ∃ hub now, statement.Does runtime store.hub answer hub ∧ store.Answers ⟨statement, answer⟩ ∧
      after = { (store.link number now ⟨statement, answer⟩).updateStream number fun stream =>
        { stream with stage := stream.stage.next ⟨statement, answer⟩ } with hub := hub }
  | .command process statement, answer, after => process = store.process ∧
    ∃ commands, statement.Does store.hub.commands answer commands ∧ store.Answers ⟨.command statement, answer⟩ ∧
      after = { store.link 0 0 ⟨.command statement, answer⟩ with hub := { store.hub with commands := commands } }
  | .close number, _, after => after = store.close number
  | .restart, _, after => ∃ process, (∀ number stream, store.streams number = some stream → stream.process ≠ process) ∧
    after = { store with
      registry := fun _ => none
      process := process
      streams := fun number => (store.streams number).map fun stream => { stream with writable := false } }

abbrev LinkStep := Taken LinkAnswer LinkStore LinkOperation

end RemoteSqlAgent
