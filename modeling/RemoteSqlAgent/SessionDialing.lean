import RemoteSqlAgent.Session

/-! The connections behind a session. An attempt to connect waits for its credential while
streams, timers and the rest of the worker go on; then it opens a client and a stream in one
step, whatever has become of the session. -/
namespace RemoteSqlAgent
open Js

/-- What the session tells the worker. -/
inductive SessionCallback where
  | ready (capabilities : List Capability)
  | message (message : ServerMessage)
  | disconnect (reason : JsString)

/-- How an attempt goes on when its credential is there, or is not. -/
inductive DialOutcome where
  | noCredential
  /-- Building the channel threw. -/
  | noChannel
  /-- `session()` of the new client threw. -/
  | noStream
  /-- Writing the hello threw. -/
  | noHello
  | opened

def DialOutcome.opensClient : DialOutcome → Bool
  | noCredential | noChannel => false
  | noStream | noHello | opened => true

/-- A session, its clients, and what the event loop still holds of it. -/
structure Dialer where
  session : Session
  /-- The number of the client that the session holds. -/
  client : Option Nat
  /-- How many clients were opened. -/
  clients : Nat
  /-- Those that were not closed. -/
  openClients : List Nat
  /-- Reconnect timers that will fire. -/
  timers : Nat
  /-- Attempts that threw, and were not caught yet. -/
  thrown : Nat

/-- What can happen to a session, from outside or from the event loop. -/
inductive DialEvent where
  | stop
  | reconnect (reason : JsString)
  | data (stream : Nat) (message : Option ServerMessage)
  | error (stream : Nat) (message : JsString)
  | ended (stream : Nat)
  | timerFired
  | resolved (outcome : DialOutcome)
  | caught

namespace Dialer

/-- `this.#client?.close()`. -/
def closeClient (dialer : Dialer) : Dialer :=
  { dialer with openClients := dialer.openClients.filter fun client => dialer.client ≠ some client }

def dropClient (dialer : Dialer) : Dialer := { dialer.closeClient with client := none }

def openClient (dialer : Dialer) : Dialer :=
  { dialer with
    client := some dialer.clients
    clients := dialer.clients + 1
    openClients := dialer.openClients ++ [dialer.clients] }

def scheduleReconnect (dialer : Dialer) : Dialer :=
  if dialer.session.stopped ∨ dialer.session.reconnectTimer ≠ .none then dialer
  else { dialer.dropClient with session := dialer.session.scheduleReconnect, timers := dialer.timers + 1 }

def handleDisconnect (dialer : Dialer) (reason : JsString) : Dialer × List SessionCallback :=
  if !dialer.session.connected ∧ dialer.session.reconnectTimer ≠ .none then (dialer, [])
  else
    let dropped := { dialer.dropClient with session := { dialer.session with connected := false, stream := none } }
    (if dropped.session.stopped then dropped else dropped.scheduleReconnect, [.disconnect reason])

def connect (dialer : Dialer) : Dialer := { dialer with session := dialer.session.connect }

def start (dialer : Dialer) : Dialer := { dialer with session := dialer.session.start }

def stop (dialer : Dialer) : Dialer :=
  { dialer.closeClient with
    session := dialer.session.stop
    timers := if dialer.session.reconnectTimer = .armed then dialer.timers - 1 else dialer.timers }

def reconnect (dialer : Dialer) (reason : JsString) : Dialer × List SessionCallback :=
  if dialer.session.stopped then (dialer, []) else dialer.handleDisconnect reason

def timerFired (dialer : Dialer) : Dialer :=
  { dialer with session := dialer.session.timerFired, timers := dialer.timers - 1 }

/-- An attempt goes on after its await. What is missing then is retried; what throws is
caught later. -/
def resolved (dialer : Dialer) : DialOutcome → Dialer
  | .noCredential =>
    { dialer with session := { dialer.session with dialing := dialer.session.dialing - 1 } }.scheduleReconnect
  | .noChannel =>
    { dialer with
      session := { dialer.session with dialing := dialer.session.dialing - 1 }
      thrown := dialer.thrown + 1 }
  | .noStream =>
    { dialer.openClient with
      session := { dialer.session with dialing := dialer.session.dialing - 1 }
      thrown := dialer.thrown + 1 }
  | .noHello => { dialer.openClient with session := dialer.session.dialed true, thrown := dialer.thrown + 1 }
  | .opened => { dialer.openClient with session := dialer.session.dialed true }

/-- The `catch` of an attempt that threw. -/
def caught (dialer : Dialer) : Dialer := { dialer with thrown := dialer.thrown - 1 }.scheduleReconnect

section
variable (crypto : Crypto) (config : WorkerConfig)

def onHelloAck (dialer : Dialer) (ack : HelloAck) : Dialer × List SessionCallback :=
  let capabilities := effectiveCapabilities ack.capabilities (ceilingOf config.maxCapability.text)
  if Session.refusesKey crypto config ack.commandSigningPublicKey then
    { dialer with session := { dialer.session with capabilities := capabilities } }.handleDisconnect
      (js "command signing key did not match the pin")
  else
    ({ dialer with session := { dialer.session with
        capabilities := capabilities
        commandSigningPublicKey := ack.commandSigningPublicKey
        connected := true } }, [.ready capabilities])

def onData (dialer : Dialer) (stream : Nat) (message : Option ServerMessage) : Dialer × List SessionCallback :=
  if dialer.session.stream ≠ some stream then (dialer, [])
  else
    match message with
    | none => (dialer, [])
    | some (.helloAck ack) => dialer.onHelloAck crypto config ack
    | some message => (dialer, [.message message])

def onError (dialer : Dialer) (stream : Nat) (message : JsString) : Dialer × List SessionCallback :=
  if dialer.session.stream ≠ some stream then (dialer, [])
  else dialer.handleDisconnect (js "stream error: " ++ message)

def onEnd (dialer : Dialer) (stream : Nat) : Dialer × List SessionCallback :=
  if dialer.session.stream ≠ some stream then (dialer, [])
  else dialer.handleDisconnect (js "server closed the stream")

/-- What happens, and what the worker is told. -/
def on (dialer : Dialer) : DialEvent → Dialer × List SessionCallback
  | .stop => (dialer.stop, [])
  | .reconnect reason => dialer.reconnect reason
  | .data stream message => dialer.onData crypto config stream message
  | .error stream message => dialer.onError stream message
  | .ended stream => dialer.onEnd stream
  | .timerFired => (dialer.timerFired, [])
  | .resolved outcome => (dialer.resolved outcome, [])
  | .caught => (dialer.caught, [])

end

def new : Dialer where
  session := .new
  client := none
  clients := 0
  openClients := []
  timers := 0
  thrown := 0

end Dialer

namespace DialEvent

/-- Whether it can happen now. -/
def Enabled (dialer : Dialer) : DialEvent → Prop
  | data stream _ | error stream _ | ended stream => stream < dialer.session.streams
  | timerFired => 0 < dialer.timers
  | resolved _ => 0 < dialer.session.dialing
  | caught => 0 < dialer.thrown
  | stop | reconnect _ => True

/-- The stream an event is on. -/
def stream? : DialEvent → Option Nat
  | data stream _ | error stream _ | ended stream => some stream
  | _ => none

end DialEvent

structure DialStep where
  before : Dialer
  event : DialEvent
  callbacks : List SessionCallback
  after : Dialer

/-- What can happen to a session that was started. -/
inductive Dials (crypto : Crypto) (config : WorkerConfig) : Dialer → List DialStep → Prop where
  | start : Dials crypto config Dialer.new.start []
  | event {dialer : Dialer} {run : List DialStep} (dials : Dials crypto config dialer run) (event : DialEvent)
      (enabled : event.Enabled dialer) :
      Dials crypto config (dialer.on crypto config event).1
        (run ++ [⟨dialer, event, (dialer.on crypto config event).2, (dialer.on crypto config event).1⟩])

section Runs
variable {crypto : Crypto} {config : WorkerConfig} {dialer : Dialer} {run : List DialStep}

/-- What holds when the session is started and after each event holds throughout. -/
theorem Dials.invariant (dials : Dials crypto config dialer run) (holds : Dialer → Prop)
    (first : holds Dialer.new.start)
    (kept : ∀ dialer event,
      ⟨dialer, event, (dialer.on crypto config event).2, (dialer.on crypto config event).1⟩ ∈ run →
      event.Enabled dialer → holds dialer → holds (dialer.on crypto config event).1) :
    holds dialer ∧ ∀ step ∈ run, holds step.before := by
  induction dials with
  | start => exact ⟨first, by simp⟩
  | @event dialer run dials event enabled ih =>
    obtain ⟨here, past⟩ := ih fun dialer event member => kept dialer event (List.mem_append_left _ member)
    refine ⟨kept _ _ (List.mem_append_right _ List.mem_cons_self) enabled here, fun step member => ?_⟩
    rcases List.mem_append.mp member with old | new
    · exact past step old
    · cases List.mem_singleton.mp new
      exact here

theorem Dials.of_mem (dials : Dials crypto config dialer run) {step : DialStep} (member : step ∈ run) :
    step.event.Enabled step.before ∧ (step.after, step.callbacks) = step.before.on crypto config step.event := by
  induction dials with
  | start => cases member
  | event dials event enabled ih =>
    rcases List.mem_append.mp member with old | new
    · exact ih old
    · cases List.mem_singleton.mp new
      exact ⟨enabled, rfl⟩

end Runs

/-! ## Samples -/

instance (dialer : Dialer) (event : DialEvent) : Decidable (event.Enabled dialer) := by
  cases event <;> unfold DialEvent.Enabled <;> infer_instance

/-- What events come to. One that cannot happen is left out. -/
def dial (crypto : Crypto) (config : WorkerConfig) (events : List DialEvent) : Dialer × List DialStep :=
  events.foldl (fun (dialer, run) event =>
    if event.Enabled dialer then
      let (after, callbacks) := dialer.on crypto config event
      (after, run ++ [⟨dialer, event, callbacks, after⟩])
    else (dialer, run)) (Dialer.new.start, [])

theorem dials_dial (crypto : Crypto) (config : WorkerConfig) (events : List DialEvent) :
    Dials crypto config (dial crypto config events).1 (dial crypto config events).2 := by
  refine List.foldlRecOn (motive := fun dialed : Dialer × List DialStep =>
    Dials crypto config dialed.1 dialed.2) events _
    .start fun dialed dials event _ => ?_
  dsimp only
  split
  · exact .event dials event ‹_›
  · exact dials

private theorem unpinned : ∀ pinned ∈ (none : Option JsString), pinned.length = 64 ∧ pinned.all isHexDigit = true :=
  fun _ pinned => absurd pinned (Option.not_mem_none _)

def unpinnedConfig : WorkerConfig where
  maxCapability := .readOnly
  commandSigningKeyFingerprint := none
  fingerprint := unpinned

/-! ## The session behind it -/

namespace Dialer
variable {dialer : Dialer}

@[simp] theorem scheduleReconnect_session : dialer.scheduleReconnect.session = dialer.session.scheduleReconnect := by
  unfold scheduleReconnect
  split
  · rw [Session.scheduleReconnect, if_pos ‹_›]
  · rfl

@[simp] theorem handleDisconnect_session (reason : JsString) :
    (dialer.handleDisconnect reason).1.session = dialer.session.handleDisconnect := by
  unfold handleDisconnect Session.handleDisconnect
  split
  · rfl
  · dsimp only
    split
    · rfl
    · exact scheduleReconnect_session

/-- The event of a session that it is. -/
def sessionEvent : DialEvent → Option Session.Event
  | .stop => some .stop
  | .reconnect _ => some .reconnect
  | .error stream _ | .ended stream => some (.ended stream)
  | .timerFired => some .timerFired
  | .resolved .noCredential => some .dialFailed
  | .resolved .opened => some (.dialed true)
  | _ => none

/-- The session goes through the events of its own account of them. -/
theorem on_session (crypto : Crypto) (config : WorkerConfig) {event : DialEvent} {its : Session.Event}
    (same : sessionEvent event = some its) : (dialer.on crypto config event).1.session = dialer.session.on its := by
  cases event with
  | stop | timerFired =>
    cases same
    rfl
  | reconnect reason =>
    cases same
    simp only [on, reconnect, Session.on, Session.reconnect]
    split
    · rfl
    · exact handleDisconnect_session reason
  | error stream message | ended stream =>
    cases same
    by_cases current : dialer.session.stream = some stream
    · simp only [on, onError, onEnd, Session.on, Session.ended, current, ne_eq, not_true_eq_false, if_false, if_true]
      exact handleDisconnect_session _
    · simp only [on, onError, onEnd, Session.on, Session.ended, current, ne_eq, not_false_eq_true, if_true, if_false]
  | resolved outcome =>
    cases outcome with
    | noCredential =>
      cases same
      exact scheduleReconnect_session
    | opened =>
      cases same
      rfl
    | noChannel | noStream | noHello => cases same
  | data | caught => cases same

/-- So it does with messages. -/
theorem onData_session (crypto : Crypto) (config : WorkerConfig) (stream : Nat) (message : Option ServerMessage) :
    (dialer.onData crypto config stream message).1.session =
      (dialer.session.onData crypto config stream message).1 := by
  unfold onData Session.onData
  split
  · rfl
  · cases message with
    | none => rfl
    | some message =>
      cases message with
      | helloAck ack =>
        simp only [onHelloAck, Session.onHelloAck]
        split
        · exact handleDisconnect_session _
        · rfl
      | command | config | instanceConfigs | certificateRenewal => rfl

/-- An attempt that threw and is caught at once. -/
theorem caught_session :
    (dialer.resolved .noChannel).caught.session = dialer.session.on .dialFailed ∧
      (dialer.resolved .noStream).caught.session = dialer.session.on .dialFailed ∧
        (dialer.resolved .noHello).caught.session = dialer.session.on (.dialed false) :=
  ⟨scheduleReconnect_session, scheduleReconnect_session, scheduleReconnect_session⟩

end Dialer

end RemoteSqlAgent
