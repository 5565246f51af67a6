import RemoteSqlAgent.CommandHandler
import Mathlib.Logic.Relation

/-! The session of a worker with its control plane. Streams come and go; each
acknowledgement decides anew what the worker may be told to do and whose
signature it trusts. Commands wait in a queue and are handled one at a time,
while messages go on arriving. -/
namespace RemoteSqlAgent
open Js CallProgram

/-! ## Configuration and messages -/

def isHexDigit (unit : CodeUnit) : Bool :=
  isDigit unit || (0x61 ≤ unit.val && unit.val ≤ 0x66) || (0x41 ≤ unit.val && unit.val ≤ 0x46)

/-- What `worker.yaml` says about who may command the worker. -/
structure WorkerConfig where
  /-- The local ceiling. The control plane cannot override it. -/
  maxCapability : MaxCapabilityTier
  /-- The pinned fingerprint, if the operator pinned one. -/
  commandSigningKeyFingerprint : Option JsString
  /-- The schema admits 64 hexadecimal digits and nothing else. -/
  fingerprint : ∀ pinned ∈ commandSigningKeyFingerprint, pinned.length = 64 ∧ pinned.all isHexDigit = true

structure Hello where
  maxCapability : JsString

structure HelloAck where
  capabilities : List JsString
  commandSigningPublicKey : JsString

/-- A message of the control plane. Only an acknowledgement and a command bear
on what is applied. -/
inductive ServerMessage where
  | helloAck (ack : HelloAck)
  | command (command : Command)
  | config
  | instanceConfigs
  | certificateRenewal

/-- What the worker says of itself first on a stream. -/
def buildHello (config : WorkerConfig) : Hello where
  maxCapability := config.maxCapability.text

/-- What a control plane that has granted these capabilities computes for a
worker. -/
def hubCapabilities (granted : List JsString) (hello : Hello) : List Capability :=
  effectiveCapabilities granted (ceilingOf hello.maxCapability)

/-- The acknowledgement it sends. -/
def hubAck (granted : List JsString) (commandSigningPublicKey : JsString) (hello : Hello) : HelloAck where
  capabilities := (hubCapabilities granted hello).map Capability.text
  commandSigningPublicKey := commandSigningPublicKey

/-! ## The session -/

/-- The timer of a reconnect. One that `stop` has cleared is still there. -/
inductive ReconnectTimer where
  | none
  | armed
  | cleared
  deriving DecidableEq

structure Session where
  capabilities : List Capability
  commandSigningPublicKey : JsString
  /-- The number of the current stream. -/
  stream : Option Nat
  /-- How many streams were opened. -/
  streams : Nat
  /-- Attempts to connect that wait for their credential. -/
  dialing : Nat
  connected : Bool
  reconnectTimer : ReconnectTimer
  stopped : Bool

namespace Session

/-- What the session decides of a command that is taken up now. -/
def commandContext (session : Session) : CommandContext where
  capabilities := session.capabilities
  commandSigningPublicKey := session.commandSigningPublicKey

def new : Session where
  capabilities := [.observe]
  commandSigningPublicKey := []
  stream := none
  streams := 0
  dialing := 0
  connected := false
  reconnectTimer := .none
  stopped := false

def connect (session : Session) : Session :=
  if session.stopped then session else { session with dialing := session.dialing + 1 }

def scheduleReconnect (session : Session) : Session :=
  if session.stopped ∨ session.reconnectTimer ≠ .none then session
  else { session with connected := false, stream := none, reconnectTimer := .armed }

def handleDisconnect (session : Session) : Session :=
  if !session.connected ∧ session.reconnectTimer ≠ .none then session
  else
    let session := { session with connected := false, stream := none }
    if session.stopped then session else session.scheduleReconnect

def start (session : Session) : Session := { session with stopped := false }.connect

def stop (session : Session) : Session :=
  let timer := if session.reconnectTimer = .armed then .cleared else session.reconnectTimer
  { session with stopped := true, reconnectTimer := timer, connected := false }

def reconnect (session : Session) : Session :=
  if session.stopped then session else session.handleDisconnect

/-- The credential of an attempt is there: a stream is opened and greeted,
unless that throws. -/
def dialed (session : Session) (greeted : Bool) : Session :=
  let session := { session with
    stream := some session.streams
    streams := session.streams + 1
    dialing := session.dialing - 1 }
  if greeted then session else session.scheduleReconnect

/-- An attempt finds no credential, or throws before there is a stream. -/
def dialFailed (session : Session) : Session :=
  { session with dialing := session.dialing - 1 }.scheduleReconnect

def timerFired (session : Session) : Session := { session with reconnectTimer := .none }.connect

/-- The stream failed or ended. -/
def ended (session : Session) (stream : Nat) : Session :=
  if session.stream = some stream then session.handleDisconnect else session

section
variable (crypto : Crypto) (config : WorkerConfig)

/-- Whether there is a pin, and a key that is not the pinned one. -/
def refusesKey (publicKeyPem : JsString) : Bool :=
  let pinned := config.commandSigningKeyFingerprint.getD []
  pinned ≠ [] && publicKeyPem ≠ [] && signingKeyFingerprint crypto publicKeyPem ≠ toLowerCase pinned

def onHelloAck (session : Session) (ack : HelloAck) : Session :=
  -- The effective set is derived again here; the one that is sent is advice.
  let capabilities := effectiveCapabilities ack.capabilities (ceilingOf config.maxCapability.text)
  let session := { session with capabilities := capabilities }
  if refusesKey crypto config ack.commandSigningPublicKey then session.handleDisconnect
  else { session with commandSigningPublicKey := ack.commandSigningPublicKey, connected := true }

/-- A message on a stream, and what is passed on of it. A stream that was
replaced is not heard any more. -/
def onData (session : Session) (stream : Nat) (message : Option ServerMessage) :
    Session × Option ServerMessage :=
  if session.stream ≠ some stream then (session, none)
  else
    match message with
    | none => (session, none)
    | some (.helloAck ack) => (session.onHelloAck crypto config ack, none)
    | some message => (session, some message)

end

/-- What can happen to a session besides a message. -/
inductive Event where
  | start
  | stop
  | reconnect
  | dialed (greeted : Bool)
  | dialFailed
  | timerFired
  | ended (stream : Nat)

/-- Whether it can happen now. -/
def Event.Enabled (session : Session) : Event → Prop
  | dialed _ | dialFailed => 0 < session.dialing
  | timerFired => session.reconnectTimer = .armed
  | start | stop | reconnect | ended _ => True

def on (session : Session) : Event → Session
  | .start => session.start
  | .stop => session.stop
  | .reconnect => session.reconnect
  | .dialed greeted => session.dialed greeted
  | .dialFailed => session.dialFailed
  | .timerFired => session.timerFired
  | .ended stream => session.ended stream

end Session

/-! ## The worker process -/

/-- One handling of a command, as far as it has come. -/
structure Handling where
  command : Command
  /-- What was read from the session when it began. -/
  context : CommandContext
  clock : Clock
  /-- What was said to msdb. -/
  transcript : Transcript

/-- A handling under way, with what is left of it. -/
structure Running extends Handling where
  rest : Sql (Except Failure CommandResult × Outbox)

/-- A call was answered. -/
def Handling.answered (handling : Handling) {request : SqlCall} (answer : SqlAnswer request)
    (rest : Sql (Except Failure CommandResult × Outbox)) : Running :=
  { handling with
    transcript := handling.transcript ++ [⟨request, answer⟩]
    rest := rest }

/-- The handlings that have ended are a history, which the process does not
keep. -/
structure Process where
  session : Session
  queue : List Command
  running : Option Running
  outbox : Outbox
  handled : List Handling

namespace Process

/-- A process that has just started, on the database that the last one left. -/
def start (outbox : Outbox) : Process where
  session := .new
  queue := []
  running := none
  outbox := outbox
  handled := []

/-- What the process does with a message the session passes on. -/
def onMessage (process : Process) : Option ServerMessage → Process
  | some (.command command) => { process with queue := process.queue ++ [command] }
  | _ => process

/-- Every handling so far. -/
def handlings (process : Process) : List Handling :=
  process.handled ++ (process.running.map (·.toHandling)).toList

/-- Take up a command with what the session holds at that moment. -/
def begin (runtime : Runtime) (process : Process) (command : Command) (clock : Clock) : Running where
  command := command
  context := process.session.commandContext
  clock := clock
  transcript := []
  rest := handleCommand runtime command process.session.commandContext clock process.outbox

/-- What can happen next. The control plane decides what arrives, msdb what it
answers, and the platform when each of them is heard. -/
inductive Step (runtime : Runtime) (config : WorkerConfig) : Process → Process → Prop where
  | event {process : Process} (event : Session.Event) (enabled : event.Enabled process.session) :
      Step runtime config process { process with session := process.session.on event }
  | data {process : Process} (stream : Nat) (message : Option ServerMessage) :
      Step runtime config process
        (let (session, passedOn) := process.session.onData runtime.crypto config stream message
         { process with session := session }.onMessage passedOn)
  /-- The instance of the next command is not managed here, or not connected. -/
  | unavailable {process : Process} {command : Command} {queue : List Command}
      (idle : process.running = none) (next : process.queue = command :: queue) :
      Step runtime config process { process with queue := queue }
  | begin {process : Process} {command : Command} {queue : List Command} (clock : Clock)
      (idle : process.running = none) (next : process.queue = command :: queue) :
      Step runtime config process
        { process with queue := queue, running := some (process.begin runtime command clock) }
  | exchange {process : Process} {handling : Handling} {request : SqlCall}
      {next : SqlAnswer request → Sql (Except Failure CommandResult × Outbox)} (answer : SqlAnswer request)
      (running : process.running = some ⟨handling, .call request next⟩) :
      Step runtime config process
        { process with running := some (handling.answered answer (next answer)) }
  | finish {process : Process} {handling : Handling} {result : Except Failure CommandResult}
      {outbox : Outbox} (running : process.running = some ⟨handling, .done (result, outbox)⟩) :
      Step runtime config process { process with
        running := none
        outbox := outbox
        handled := process.handled ++ [handling] }
  /-- A heartbeat between two commands. Those during one are in its clock. -/
  | heartbeat {process : Process} (now : Int) (idle : process.running = none) :
      Step runtime config process { process with
        outbox := process.outbox.pruneAppliedCommands now APPLIED_COMMAND_RETENTION_MS }

/-- What a process can become, on any database it was started with. -/
def Reachable (runtime : Runtime) (config : WorkerConfig) (process : Process) : Prop :=
  ∃ outbox, Relation.ReflTransGen (Step runtime config) (.start outbox) process

end Process

end RemoteSqlAgent
